import AggreApi.TwoFA
import AggreApi.Lib.Procs

/-!
# Backup codes and failed attempts

A `Save` writes the whole row, whatever has become of it since it was read. A code is used once
where each `Save` finds it unused, and the attempts are bounded where each is checked against the
row as it stands and saved before the next.
-/

namespace AggreApi

open List

namespace BackupCodes

/-- No row was used twice, and each use was of the batch that was the last when it was selected. -/
def Sound (s : BackupCodes) : Prop :=
  (s.uses.map BackupUse.id).Nodup ∧ ∀ u ∈ s.uses, u.batch = u.latest

structure Inv (s : BackupCodes) : Prop where
  sound : s.Sound
  used : ∀ u ∈ s.uses, ∃ row, s.rows[u.id]? = some row ∧ row.isUsed = true
  fresh : ∀ row ∈ s.rows, row.deleted = false → row.isUsed = false → row.batch = s.latest
  held : ∀ id latest, BackupAt.saving id latest ∈ s.procs →
    ∃ row, s.rows[id]? = some row ∧ row.batch = latest

variable {s : BackupCodes} {e : BackupEvent} {pos : BackupAt}

theorem Inv.init (codes given : List String) (lists : List (List String)) :
    (init codes given lists).Inv := by
  refine ⟨⟨nodup_nil, nofun⟩, nofun, fun row hrow _ _ => ?_, fun id latest hmem => ?_⟩
  · obtain ⟨hash, -, rfl⟩ := mem_map.1 hrow
    rfl
  · simp [BackupCodes.init] at hmem

theorem Inv.move (h : s.Inv) (i : ℕ) (hpos : ∀ id latest, pos = .saving id latest →
    ∃ row, s.rows[id]? = some row ∧ row.batch = latest) : (s.move i pos).Inv := by
  refine { h with held := fun id latest hmem => ?_ }
  rcases mem_or_eq_of_mem_set hmem with hold | rfl
  · exact h.held id latest hold
  · exact hpos id latest rfl

theorem Inv.select (h : s.Inv) {code : String} {id : ℕ} (hsel : s.select code = some id) :
    ∃ row, s.rows[id]? = some row ∧ row.batch = s.latest := by
  obtain ⟨hlt, hrow, -⟩ := findIdx?_eq_some_iff_getElem.1 hsel
  simp only [Bool.and_eq_true, Bool.not_eq_true'] at hrow
  exact ⟨_, getElem?_eq_getElem hlt,
    h.fresh _ (getElem_mem hlt) hrow.1.1 hrow.1.2⟩

theorem Inv.save (h : s.Inv) {id latest : ℕ} {row : BackupCode} (hrow : s.rows[id]? = some row)
    (hunused : row.isUsed = false) (hbatch : row.batch = latest) : (s.save id latest).Inv := by
  rw [BackupCodes.save, hrow]
  have hset : ∀ {j : ℕ} {r : BackupCode}, s.rows[j]? = some r →
      ∃ r', (s.rows.set id { row with isUsed := true, deleted := false })[j]? = some r' ∧
        r'.batch = r.batch ∧ (r'.isUsed = r.isUsed ∨ j = id ∧ r'.isUsed = true) := by
    intro j r hr
    rw [getElem?_set]
    split_ifs with hj hlt
    · obtain rfl := Option.some.inj (hrow.symm.trans (hj ▸ hr))
      exact ⟨_, rfl, rfl, .inr ⟨hj.symm, rfl⟩⟩
    · exact absurd (List.getElem?_eq_some_iff.1 hrow).1 hlt
    · exact ⟨r, hr, rfl, .inl rfl⟩
  refine ⟨⟨nodup_cons.2 ⟨fun hmem => ?_, h.sound.1⟩, ?_⟩, ?_, fun r hr hdel hun => ?_, ?_⟩
  · obtain ⟨u, hu, hid⟩ := mem_map.1 hmem
    obtain ⟨r, hr, huse⟩ := h.used u hu
    rw [hid, hrow, Option.some.injEq] at hr
    rw [← hr, hunused] at huse
    cases huse
  · exact forall_mem_cons.2 ⟨hbatch, h.sound.2⟩
  · refine forall_mem_cons.2 ⟨?_, fun u hu => ?_⟩
    · exact ⟨_, List.getElem?_set_self (List.getElem?_eq_some_iff.1 hrow).1, rfl⟩
    · obtain ⟨r, hr, huse⟩ := h.used u hu
      obtain ⟨r', hr', -, hu' | ⟨-, hu'⟩⟩ := hset hr
      · exact ⟨r', hr', hu'.trans huse⟩
      · exact ⟨r', hr', hu'⟩
  · rcases mem_or_eq_of_mem_set hr with hold | rfl
    · exact h.fresh r hold hdel hun
    · cases hun
  · intro j l hmem
    obtain ⟨r, hr, hb⟩ := h.held j l hmem
    obtain ⟨r', hr', hb', -⟩ := hset hr
    exact ⟨r', hr', hb'.trans hb⟩

theorem Inv.commit (h : s.Inv) (ids : List ℕ) (hashes : List String)
    (hall : ∀ id row, s.rows[id]? = some row → row.deleted = false → row.isUsed = false →
      id ∈ ids) : (s.commit ids hashes).Inv := by
  have hold : ∀ {j : ℕ} {r : BackupCode}, s.rows[j]? = some r →
      (s.commit ids hashes).rows[j]? = some { r with deleted := r.deleted || j ∈ ids } := by
    intro j r hr
    have hlt := (List.getElem?_eq_some_iff.1 hr).1
    rw [BackupCodes.commit, getElem?_append_left (by simpa using hlt), getElem?_mapIdx,
      hr]
    rfl
  refine ⟨h.sound, fun u hu => ?_, fun r hr hdel hun => ?_, fun j l hmem => ?_⟩
  · obtain ⟨r, hr, huse⟩ := h.used u hu
    exact ⟨_, hold hr, huse⟩
  · rcases mem_append.1 hr with hr | hr
    · obtain ⟨j, hlt, rfl⟩ := mem_mapIdx.1 hr
      simp only [Bool.or_eq_false_iff, decide_eq_false_iff_not] at hdel
      exact absurd (hall j _ (getElem?_eq_getElem hlt) hdel.1 hun) hdel.2
    · obtain ⟨hash, -, rfl⟩ := mem_map.1 hr
      rfl
  · obtain ⟨r, hr, hb⟩ := h.held j l hmem
    exact ⟨_, hold hr, hb⟩

theorem Inv.step (h : s.Inv) (hc : s.careful e = true) : (s.step e).Inv := by
  unfold BackupCodes.step
  unfold careful at hc
  rcases hp : s.procs[e.proc]? with _ | pos <;> rw [hp] at hc
  · exact h
  have hstay : ∀ pos, (∀ id latest, pos ≠ .saving id latest) → (s.move e.proc pos).Inv :=
    fun pos hne => h.move e.proc fun id latest heq => absurd heq (hne id latest)
  cases pos with
  | validating code =>
    simp only [advance]
    split_ifs
    · exact hstay _ nofun
    rcases hsel : s.select code with _ | id
    · exact hstay _ nofun
    · refine h.move e.proc fun id' latest heq => ?_
      obtain ⟨rfl, rfl⟩ := BackupAt.saving.inj heq
      exact h.select hsel
  | saving id latest =>
    simp only [advance]
    split_ifs
    · exact h
    · exact hstay _ nofun
    obtain ⟨row, hrow, hbatch⟩ := h.held id latest (mem_of_getElem? hp)
    change s.rows[id]?.all (fun row => !row.isUsed) = true at hc
    rw [hrow] at hc
    exact (hstay (.returned true) nofun).save hrow (by simpa using hc) hbatch
  | creating =>
    simp only [advance]
    split_ifs <;> exact hstay _ nofun
  | deleting =>
    simp only [advance]
    split_ifs
    · exact h
    · exact hstay _ nofun
  | inserting codes ids hashes =>
    cases codes with
    | cons =>
      simp only [advance]
      split_ifs <;> exact hstay _ nofun
    | nil =>
      simp only [advance]
      split_ifs
      · exact hstay _ nofun
      refine (hstay .created nofun).commit ids hashes fun id row hrow hdel hun => ?_
      have hid := all_eq_true.1 hc id
        (List.mem_range.2 (List.getElem?_eq_some_iff.1 hrow).1)
      change s.rows[id]? = some row at hrow
      simpa [hrow, hdel, hun] using hid
  | returned => exact h
  | created => exact h

/-- Where each `Save` finds its code unused and each regeneration has deleted every unused code, no
code is used twice, and a call returns true only for a code of the last batch committed when it
started. -/
theorem backup_codes_used_once (codes given : List String) (lists : List (List String))
    (es : List BackupEvent)
    (hes : Along step (fun s e => s.careful e = true) (init codes given lists) es) :
    (run step (init codes given lists) es).Sound :=
  (Along.run_inv (I := Inv) (fun _ _ h hc => h.step hc) (Inv.init codes given lists) hes).sound

def statements (procs : List ℕ) : List BackupEvent := procs.map fun i => ⟨i, false⟩

theorem backup_codes_used_once_sample :
    (run step (init ["AB12-CD34"] ["ab12cd34"] [["EF56-GH78"]])
        (statements [0, 0, 1, 1, 1, 1])).Sound ∧
      (run step (init ["AB12-CD34"] ["ab12cd34"] [["EF56-GH78"]])
        (statements [0, 0, 1, 1, 1, 1])).uses.length = 1 :=
  ⟨backup_codes_used_once _ _ _ _ (by decide), by decide⟩

/-- Two calls select the code before either saves it; and of two regenerations the first's codes
stay usable. -/
theorem backup_code_used_twice :
    (run step (init ["AB12-CD34"] ["AB12-CD34", "AB12-CD34"] [])
        (statements [0, 1, 0, 1])).uses = [⟨0, 0, 0⟩, ⟨0, 0, 0⟩] ∧
      (run step (init ["IJ90-KL12"] ["AB12-CD34"] [["AB12-CD34"], ["EF56-GH78"]])
        (statements [1, 2, 1, 1, 1, 2, 2, 2, 0, 0])).uses = [⟨1, 1, 2⟩] := by
  decide

end BackupCodes

/-- The wrong codes since the last right one. -/
def streak (log : List (ℤ × Bool)) : List (ℤ × Bool) := log.takeWhile fun x => !x.2

def Guarded : List (ℤ × Bool) → Prop
  | [] => True
  | x :: log => Guarded log ∧ (∀ y ∈ log, y.1 ≤ x.1) ∧
      (x.2 = false → maxFailAttempts ≤ (streak log).length →
        ∀ y ∈ log.head?, y.1 + lockoutDuration ≤ x.1)

def inWindow (w : ℤ) (x : ℤ × Bool) : Bool := w ≤ x.1 && x.1 < w + lockoutDuration

/-- No window without a right code has more wrong ones than are allowed. -/
def Bounded (log : List (ℤ × Bool)) : Prop :=
  ∀ w, (∀ x ∈ log, inWindow w x = true → x.2 = false) →
    (log.filter (inWindow w)).length ≤ maxFailAttempts

theorem filter_inWindow_eq_nil {w : ℤ} {log : List (ℤ × Bool)} (h : ∀ y ∈ log, y.1 < w) :
    log.filter (inWindow w) = [] := by
  refine filter_eq_nil_iff.2 fun y hy => ?_
  have := h y hy
  simp [inWindow]
  omega

theorem Guarded.le_streak {w : ℤ} : ∀ {log : List (ℤ × Bool)}, Guarded log →
    (∀ x ∈ log, x.1 < w + lockoutDuration) → (∀ x ∈ log, inWindow w x = true → x.2 = false) →
    (log.filter (inWindow w)).length ≤ (streak log).length
  | [], _, _, _ => le_rfl
  | x :: log, ⟨hlog, horder, _⟩, hlt, hwrong => by
    by_cases hx : w ≤ x.1
    · have hin : inWindow w x = true := by simpa [inWindow, hx] using hlt x mem_cons_self
      have ih := hlog.le_streak (fun y hy => hlt y (mem_cons_of_mem x hy))
        fun y hy => hwrong y (mem_cons_of_mem x hy)
      rw [filter_cons_of_pos hin, streak,
        takeWhile_cons_of_pos (by simp [hwrong x mem_cons_self hin])]
      exact Nat.succ_le_succ ih
    · rw [filter_inWindow_eq_nil (forall_mem_cons.2
        ⟨not_le.1 hx, fun y hy => (horder y hy).trans_lt (not_le.1 hx)⟩)]
      exact Nat.zero_le _

theorem Guarded.bounded : ∀ {log : List (ℤ × Bool)}, Guarded log → Bounded log
  | [], _ => fun _ _ => Nat.zero_le _
  | x :: log, ⟨hlog, horder, hguard⟩ => by
    intro w hwrong
    have hwrong' := fun y hy => hwrong y (mem_cons_of_mem x hy)
    have ih := hlog.bounded w hwrong'
    by_cases hin : inWindow w x = true
    · rw [filter_cons_of_pos hin, length_cons]
      simp only [inWindow, Bool.and_eq_true, decide_eq_true_eq] at hin
      by_contra hfull
      have hle := hlog.le_streak (fun y hy => (horder y hy).trans_lt hin.2) hwrong'
      have hfree := hguard (hwrong x mem_cons_self (by simpa [inWindow] using hin)) (by omega)
      have hnil : log.filter (inWindow w) = [] := by
        cases log with
        | nil => rfl
        | cons y =>
          have hy := hfree y rfl
          have hyw : y.1 < w := by omega
          exact filter_inWindow_eq_nil (forall_mem_cons.2
            ⟨hyw, fun z hz => (hlog.2.1 z hz).trans_lt hyw⟩)
      rw [hnil] at hfull
      exact hfull (by decide)
    · rw [filter_cons_of_neg hin]
      exact ih

namespace TwoFAState

/-- The row counts the wrong codes since the last right one, and is locked after the last of them
once they are too many. -/
def Ties (t : TwoFA) (log : List (ℤ × Bool)) : Prop :=
  (streak log).length ≤ t.failedAttempts ∧
    ∀ y ∈ log.head?, y.2 = false → maxFailAttempts ≤ t.failedAttempts →
      t.lockedUntil = some (y.1 + lockoutDuration)

/-- One attempt at a time is about to save the row, and none once it is gone. -/
structure Inv (s : TwoFAState) : Prop where
  guarded : Guarded s.log
  clock : ∀ y ∈ s.log, y.1 ≤ s.clock
  one : s.procs.countP isSaving ≤ 1
  row : s.procs.countP isSaving = 0 → ∀ t, s.row = some t → Ties t s.log
  saving : ∀ t, TwoFAAt.saving t ∈ s.procs → Ties t s.log
  gone : s.disabled = true → s.row = none ∧ s.procs.countP isSaving = 0

variable {s : TwoFAState} {e : TwoFAEvent} {i : ℕ} {pos pos' : TwoFAAt}

theorem Ties.check {t : TwoFA} {log : List (ℤ × Bool)} {now : ℤ} (h : Ties t log)
    (hfree : t.isLocked now = false) (correct : Bool) :
    (correct = false → maxFailAttempts ≤ (streak log).length →
        ∀ y ∈ log.head?, y.1 + lockoutDuration ≤ now) ∧
      Ties (if correct then t.succeeded else t.failed now) ((now, correct) :: log) := by
  cases correct with
  | true => exact ⟨nofun, Nat.zero_le _, fun y hy hwrong => by cases hy; cases hwrong⟩
  | false =>
    refine ⟨fun _ hlen y hy => ?_, Nat.succ_le_succ h.1, fun y hy _ hmax => ?_⟩
    · obtain ⟨rest, rfl⟩ : ∃ rest, log = y :: rest := by
        cases log with
        | nil => cases hy
        | cons _ rest => exact ⟨rest, by rw [Option.some.inj hy]⟩
      have hwrong : y.2 = false := by
        by_contra hne
        rw [streak, takeWhile_cons_of_neg (by simpa using hne)] at hlen
        cases hlen
      rw [TwoFA.isLocked, h.2 y rfl hwrong (hlen.trans h.1)] at hfree
      simpa using hfree
    · cases hy
      exact if_pos hmax

theorem Inv.tick (h : s.Inv) (now : ℤ) : ({ s with clock := max s.clock now }).Inv :=
  { h with clock := fun y hy => (h.clock y hy).trans (le_max_left _ _) }

/-- A step that saves nothing and starts no save. -/
theorem Inv.move (h : s.Inv) (hp : s.procs[i]? = some pos) (hpos : isSaving pos = false)
    (hpos' : isSaving pos' = false) : (s.move i pos').Inv := by
  have hcount := countP_set_add pos' isSaving hp
  simp only [hpos, hpos', Bool.false_eq_true, if_false, add_zero] at hcount
  refine { h with one := ?_, row := ?_, saving := fun t hmem => ?_, gone := ?_ }
  · exact hcount ▸ h.one
  · exact hcount ▸ h.row
  · rcases mem_or_eq_of_mem_set hmem with hold | rfl
    · exact h.saving t hold
    · cases hpos'
  · exact hcount ▸ h.gone

theorem Inv.check (h : s.Inv) {t : TwoFA} (hp : s.procs[i]? = some (.checking t))
    (hrow : s.row = some t) (hnone : s.procs.countP isSaving = 0)
    (hfree : t.isLocked s.clock = false) (correct : Bool) :
    { s.move i (.saving (if correct then t.succeeded else t.failed s.clock)) with
      log := (s.clock, correct) :: s.log }.Inv := by
  obtain ⟨hguard, hties⟩ := (h.row hnone t hrow).check hfree correct
  have hcount := countP_set_add (.saving (if correct then t.succeeded else t.failed s.clock))
    isSaving hp
  simp only [hnone, isSaving, Bool.false_eq_true, if_false, if_true] at hcount
  refine ⟨⟨h.guarded, h.clock, hguard⟩, forall_mem_cons.2 ⟨le_rfl, h.clock⟩, ?_, ?_, ?_, ?_⟩
  · exact hcount.le
  · exact fun hzero => absurd (hcount.symm.trans hzero) (by decide)
  · intro t' hmem
    rcases mem_or_eq_of_mem_set hmem with hold | heq
    · exact absurd rfl (countP_eq_zero.1 hnone _ hold)
    · rw [TwoFAAt.saving.inj heq]
      exact hties
  · intro hdis
    rw [(h.gone hdis).1] at hrow
    cases hrow

theorem Inv.save (h : s.Inv) {t : TwoFA} (hp : s.procs[i]? = some (.saving t)) :
    { s.move i .ended with row := some t }.Inv := by
  have hcount : (s.procs.set i .ended).countP isSaving + 1 = s.procs.countP isSaving + 0 :=
    countP_set_add .ended isSaving hp
  have hone := h.one
  have hzero : (s.procs.set i .ended).countP isSaving = 0 := by omega
  refine { h with one := ?_, row := ?_, saving := ?_, gone := fun hdis => ?_ }
  · exact hzero.trans_le (Nat.zero_le 1)
  · intro _ t' heq
    cases heq
    exact h.saving t (mem_of_getElem? hp)
  · exact fun t' hmem => absurd rfl (countP_eq_zero.1 hzero _ hmem)
  · have := (h.gone hdis).2
    omega

theorem Inv.step (h : s.Inv) (hc : s.careful e = true) : (s.step e).Inv := by
  unfold TwoFAState.step
  unfold careful at hc
  rcases hp : s.procs[e.proc]? with _ | pos <;> rw [hp] at hc
  · exact h
  replace h := h.tick e.now
  have hnone : s.procs.any isSaving = false → s.procs.countP isSaving = 0 := by simp
  cases pos with
  | loading =>
    simp only [advance]
    split
    · split_ifs <;> exact h.move hp rfl rfl
    · exact h.move hp rfl rfl
  | checking t =>
    simp only [Bool.and_eq_true, decide_eq_true_eq, Bool.not_eq_true'] at hc
    rcases hlock : t.isLocked (max s.clock e.now) with _ | _
    · simp only [advance, hlock, Bool.false_eq_true, if_false]
      exact h.check hp hc.1 (hnone hc.2) hlock e.correct
    · simp only [advance, hlock, if_true]
      exact h.move hp rfl rfl
  | saving =>
    simp only [advance]
    split_ifs
    · exact h
    · exact h.save hp
  | removing =>
    simp only [advance]
    split_ifs
    · exact h
    · exact h.move hp rfl rfl
  | disabling =>
    simp only [advance]
    split_ifs <;> exact h.move hp rfl rfl
  | removed =>
    simp only [Bool.and_eq_true, Bool.not_eq_true'] at hc
    have hmove : ({ s with clock := max s.clock e.now }.move e.proc .ended).Inv :=
      h.move hp rfl rfl
    have hzero : (s.procs.set e.proc .ended).countP isSaving = 0 := by
      have hcount := countP_set_add .ended isSaving hp
      rw [hnone hc.2] at hcount
      exact hcount
    simp only [advance, hc.1, if_true]
    exact { hmove with row := nofun, gone := fun _ => ⟨rfl, hzero⟩ }
  | ended => exact h

/-- Where each code is evaluated with the row as it stands, and no save is under way then or at a
deletion, the wrong codes are bounded and a deleted row stays so. -/
theorem guesses_bounded (t : TwoFA) (attempts disables : ℕ) (es : List TwoFAEvent)
    (hes : Along step (fun s e => s.careful e = true) (init t attempts disables) es) :
    Bounded (run step (init t attempts disables) es).log ∧
      ((run step (init t attempts disables) es).disabled = true →
        (run step (init t attempts disables) es).row = none) := by
  have hzero : (init t attempts disables).procs.countP isSaving = 0 := by
    simp [init, countP_append, isSaving]
  have h : (run step (init t attempts disables) es).Inv := by
    refine Along.run_inv (I := Inv) (fun _ _ h hc => h.step hc) ?_ hes
    refine ⟨trivial, nofun, by omega, fun _ t' _ => ⟨Nat.zero_le _, nofun⟩, fun
      t' hmem => ?_, nofun⟩
    exact absurd rfl (countP_eq_zero.1 hzero _ hmem)
  exact ⟨h.guarded.bounded, fun hdis => (h.gone hdis).1⟩

def enabledRow : TwoFA := ⟨true, 0, none⟩

def guessing : List TwoFAEvent :=
  ([0, 0, 0, 1, 1, 1, 2, 2, 2, 3, 3, 3, 4, 4, 4, 5, 5] ++ [6, 6, 6]).map fun i => ⟨i, 7, false⟩

theorem guesses_bounded_sample :
    (run step (init enabledRow 6 1) guessing).log.length = 5 ∧
      Bounded (run step (init enabledRow 6 1) guessing).log ∧
      ((run step (init enabledRow 6 1) guessing).disabled = true →
        (run step (init enabledRow 6 1) guessing).row = none) :=
  ⟨by decide, guesses_bounded enabledRow 6 1 guessing (by decide)⟩

/-- Six attempts that load the row before the first save are all evaluated; and the save of an early
attempt brings a deleted row back. -/
theorem guesses_unbounded :
    ((run step (init enabledRow 6 0)
    ((List.range 6 ++ List.range 6).map fun i => ⟨i, 7, false⟩)).log
        = List.replicate 6 (7, false)) ∧
      (run step (init enabledRow 1 1) ([0, 0, 1, 1, 1, 0].map fun i => ⟨i, 7, false⟩)).disabled
        = true ∧
      (run step (init enabledRow 1 1) ([0, 0, 1, 1, 1, 0].map fun i => ⟨i, 7, false⟩)).row
        = some ⟨true, 1, none⟩ := by
  decide

end TwoFAState

end AggreApi
