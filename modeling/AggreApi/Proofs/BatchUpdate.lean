import AggreApi.BatchUpdate

/-!
# Batched accounting against direct accounting

What is stored, what waits, what the goroutine has taken out and what the calls have still to do add
up to the same at every step, except where a statement of `batchUpdate` fails: the entry has left
its store by then.
-/

namespace AggreApi

open List BatchState BatchUpdateType Function

variable (type : BatchUpdateType) (e : BatchEvent)

namespace BatchUpdateType

theorem update_add (id : ℕ) (v w : ℤ) :
    type.update id (v + w) = type.update id v + type.update id w := by
  cases type with
  | tokenQuota =>
    simp only [update, Counters.increaseTokenQuota, neg_add, Pi.single_add]
    abel
  | userQuota | usedQuota | channelUsedQuota | requestCount => exact Pi.single_add ..

theorem update_eq_zero_iff (id : ℕ) (v : ℤ) : type.update id v = 0 ↔ v = 0 := by
  cases type with
  | tokenQuota =>
    refine ⟨fun h => ?_, fun h => ?_⟩
    · have := congrFun h (.tokenRemainQuota id)
      simpa [update, Counters.increaseTokenQuota] using this
    · simp [update, Counters.increaseTokenQuota, h]
  | userQuota | usedQuota | channelUsedQuota | requestCount => exact Pi.single_eq_zero_iff

def total (store : BatchUpdateStore) (c : Counter) : ℤ :=
  (store.map fun e => type.update e.1 e.2 c).sum

theorem total_addNewRecord (type : BatchUpdateType) (id : ℕ) (value : ℤ) (c : Counter) :
    ∀ store : BatchUpdateStore,
      type.total (store.addNewRecord id value) c = type.total store c + type.update id value c
  | [] => by simp [total, BatchUpdateStore.addNewRecord]
  | e :: store => by
    unfold BatchUpdateStore.addNewRecord
    split_ifs with he
    · simp only [total, map_cons, sum_cons, update_add, Pi.add_apply, he]
      ring
    · have ih := total_addNewRecord type id value c store
      simp only [total, map_cons, sum_cons] at ih ⊢
      rw [ih]
      ring

theorem total_eraseIdx {store : BatchUpdateStore} {key : ℕ} {e : ℕ × ℤ} (h : store[key]? = some e)
    (c : Counter) :
    type.total (store.eraseIdx key) c = type.total store c - type.update e.1 e.2 c := by
  obtain ⟨hl, rfl⟩ := List.getElem?_eq_some_iff.1 h
  induction store generalizing key with
  | nil => cases hl
  | cons _ store ih =>
    cases key with
    | zero => simp [total]
    | succ key =>
      have hlt : key < store.length := by simpa using hl
      have := ih hlt (getElem?_eq_getElem hlt)
      simp only [total, eraseIdx_cons_succ, map_cons, sum_cons,
        getElem_cons_succ] at this ⊢
      rw [this]
      ring

end BatchUpdateType

def BatchStep.delta : BatchStep → Counters
  | update delta => delta
  | addNewRecord type id value => type.update id value

theorem BatchCall.sum_steps (call : BatchCall) (c : Counter) :
    (call.steps.map fun e => e.delta c).sum = call.direct c := by
  cases call <;> simp only [steps, direct] <;> (repeat' split) <;>
    simp [BatchStep.delta, BatchUpdateType.update, Counters.increaseUserQuota,
      Counters.decreaseUserQuota, Counters.increaseTokenQuota, Counters.decreaseTokenQuota,
      Counters.updateUserUsedQuotaAndRequestCount, Counters.updateUserUsedQuota,
      Counters.updateUserRequestCount, Counters.updateChannelUsedQuota]

namespace BatchState

section Step

variable {s : BatchState} {c : Counter}

def stored (s : BatchState) (c : Counter) : ℤ :=
  (BatchUpdateType.all.map fun type => type.total (s.stores type) c).sum

def inFlight (s : BatchState) (c : Counter) : ℤ :=
  match s.flusher with
  | .flushing type store _ => type.total store c
  | _ => 0

/-- What the calls have still to do. -/
def outstanding (s : BatchState) (c : Counter) : ℤ :=
  (s.procs.map fun rest => (rest.map fun e => e.delta c).sum).sum

def funds (s : BatchState) (c : Counter) : ℤ :=
  s.db c + (s.stored c + s.inFlight c) + s.outstanding c

theorem stored_update (type : BatchUpdateType) (store : BatchUpdateStore) (c : Counter) :
    { s with stores := update s.stores type store }.stored c
      = s.stored c + (type.total store c - type.total (s.stores type) c) := by
  cases type <;> simp [stored, BatchUpdateType.all, Function.update] <;> ring

theorem funds_perform (e : BatchStep) : (s.perform e).funds c = s.funds c + e.delta c := by
  cases e with
  | update delta =>
    change s.db c + delta c + (s.stored c + s.inFlight c) + s.outstanding c = _
    rw [BatchStep.delta, funds]
    ring
  | addNewRecord type =>
    change s.db c + ({ s with stores := update s.stores type _ }.stored c
      + s.inFlight c) + s.outstanding c = _
    rw [stored_update, total_addNewRecord, BatchStep.delta, funds]
    ring

theorem funds_call (i : ℕ) : (s.step (.call i)).funds c = s.funds c := by
  unfold step
  dsimp only
  split
  · rename_i e rest hpos
    have hout := sum_map_set rest (fun rest : List BatchStep => (rest.map fun e => e.delta c).sum)
      hpos
    rw [map_cons, sum_cons] at hout
    rw [funds_perform]
    change s.db c + (s.stored c + s.inFlight c) + ((s.procs.set i rest).map _).sum + _ = _
    rw [hout, funds, outstanding]
    ring
  · rfl

/-- The part of the counters that is lost with a step. -/
def lostDelta (s : BatchState) (c : Counter) : BatchEvent → ℤ
  | .call _ => 0
  | .flush key fail =>
    match s.flusher with
    | .flushing type store _ =>
      if fail then (store[key]?).elim 0 fun e => type.update e.1 e.2 c else 0
    | _ => 0

theorem funds_flush (key : ℕ) (fail : Bool) :
    (s.step (.flush key fail)).funds c = s.funds c - s.lostDelta c (.flush key fail) := by
  unfold step flush lostDelta
  dsimp only
  split
  · rename_i hat
    simp [funds, stored, inFlight, outstanding, hat]
  · rename_i hat
    simp [funds, stored, inFlight, outstanding, hat]
  · rename_i type types hat
    split_ifs <;> simp [funds, stored, inFlight, outstanding, hat]
  · rename_i hat
    simp [funds, stored, inFlight, outstanding, hat]
  · rename_i type types hat
    have hstored := stored_update (s := s) type [] c
    change s.db c + ({ s with stores := update s.stores type [] }.stored c
      + type.total (s.stores type) c) + s.outstanding c = _
    rw [hstored, funds, inFlight, hat]
    simp only [total, map_nil, sum_nil]
    ring
  · rename_i type types hat
    simp [funds, stored, inFlight, outstanding, hat, total]
  · rename_i type store types _ hat
    rw [hat]
    dsimp only
    cases hkey : store[key]? with
    | none => simp
    | some e =>
      have herase := type.total_eraseIdx hkey c
      have hflight : s.inFlight c = type.total store c := by rw [inFlight, hat]
      change (if fail then s.db else s.db + type.update e.1 e.2) c
        + (s.stored c + type.total (store.eraseIdx key) c) + s.outstanding c = _
      rw [herase, funds, hflight]
      cases fail <;> simp <;> ring

theorem funds_step : (s.step e).funds c = s.funds c - s.lostDelta c e := by
  cases e with
  | call => rw [funds_call, lostDelta, sub_zero]
  | flush key fail => exact funds_flush key fail

theorem lostDelta_eq_zero_iff : (∀ c, s.lostDelta c e = 0) ↔ s.nothingLost e = true := by
  unfold lostDelta nothingLost lost
  cases e with
  | call => simp
  | flush key fail =>
    cases s.flusher with
    | flushing type store =>
      cases fail with
      | false => simp
      | true =>
        dsimp only
        cases store[key]? with
        | none => simp
        | some e =>
          have hzero := type.update_eq_zero_iff e.1 e.2
          rw [funext_iff] at hzero
          simpa using hzero
    | idle => simp
    | checking => simp
    | swapping => simp

theorem nothingLost_of_succeeds {e : BatchEvent} (h : succeeds e = true) :
    s.nothingLost e = true := by
  cases e with
  | call => rfl
  | flush _ fail =>
    have hfail : fail = false := by simpa [succeeds] using h
    subst hfail
    unfold nothingLost lost
    dsimp only
    split <;> rfl

end Step

/-- Stored and pending add up to the initial counters and what the calls have done so far. -/
def Conserved (db : Counters) (calls : List BatchCall) (s : BatchState) : Prop :=
  ∀ c, s.db c + (s.stored c + s.inFlight c)
    = db c + (calls.map fun call => call.direct c).sum - s.outstanding c

theorem Conserved.init (db : Counters) (calls : List BatchCall) :
    (init db calls).Conserved db calls := by
  intro c
  have hout : (BatchState.init db calls).outstanding c
      = (calls.map fun call => call.direct c).sum := by
    simp [BatchState.init, outstanding, comp_def, BatchCall.sum_steps]
  have hstored : (BatchState.init db calls).stored c = 0 := by
    simp [BatchState.init, stored, BatchUpdateType.all, BatchUpdateType.total]
  rw [hout, hstored]
  change db c + (0 + 0) = _
  ring

theorem conserved_step_iff {db : Counters} {calls : List BatchCall} {s : BatchState}
    (h : s.Conserved db calls) : (s.step e).Conserved db calls ↔ s.nothingLost e = true := by
  rw [← lostDelta_eq_zero_iff]
  refine forall_congr' fun c => ?_
  have hfunds := funds_step (s := s) (c := c) e
  have hc := h c
  unfold funds at hfunds
  constructor <;> intro h' <;> linarith

/-- Charges are conserved in every state of a run exactly when each statement of `batchUpdate` that
fails was to add nothing. -/
theorem charges_conserved_iff (db : Counters) (calls : List BatchCall) (es : List BatchEvent) :
    (∀ pre post, es = pre ++ post → ∀ c,
        (run step (init db calls) pre).db c
            + ((run step (init db calls) pre).stored c + (run step (init db calls) pre).inFlight c)
          = db c + (calls.map fun call => call.direct c).sum
            - (run step (init db calls) pre).outstanding c) ↔
      Along step (fun s e => s.nothingLost e = true) (init db calls) es :=
  (along_iff_reached (I := Conserved db calls) (fun _ e h => conserved_step_iff e h)
    (Conserved.init db calls)).symm

def failedFlush : List BatchEvent :=
  [BatchEvent.call 0, .flush 0 false, .flush 0 false, .flush 0 false, .flush 0 true]
    ++ List.replicate 10 (BatchEvent.flush 0 false)

/-- The charge of 300 is in no store any more and not in the database. -/
theorem failed_charge_lost :
    (run step (init 0 [.decreaseUserQuota 1 300]) failedFlush).idle = true ∧
      (run step (init 0 [.decreaseUserQuota 1 300]) failedFlush).returned = true ∧
      (run step (init 0 [.decreaseUserQuota 1 300]) failedFlush).stores .userQuota = [] ∧
      (run step (init 0 [.decreaseUserQuota 1 300]) failedFlush).db (.userQuota 1) = 0 := by
  decide

section Drain

variable {s : BatchState}

/-- The stores `batchUpdate` has found empty or has swapped in this run, with all calls returned. -/
def Drained (s : BatchState) : Prop :=
  s.returned = true ∧
    match s.flusher with
    | .idle => ∀ type, s.stores type = []
    | .checking types => ∀ type ∉ types, s.stores type = []
    | .swapping types => ∀ type ∉ types, s.stores type = []
    | .flushing _ _ types => ∀ type ∉ types, s.stores type = []

theorem mem_all : type ∈ BatchUpdateType.all := by
  cases type <;> decide

theorem flusher_of_idle (h : s.idle = true) : s.flusher = .idle := by
  unfold idle at h
  split at h
  · assumption
  · cases h

theorem step_call_of_returned (h : s.returned = true) (i : ℕ) : s.step (.call i) = s := by
  unfold step
  dsimp only
  split
  · rename_i e rest hpos
    have hempty := all_eq_true.1 h _ (mem_of_getElem? hpos)
    cases hempty
  · rfl

theorem Drained.flush (h : s.Drained) (key : ℕ) (fail : Bool) : (s.flush key fail).Drained := by
  obtain ⟨hret, hat⟩ := h
  unfold BatchState.flush
  split
  · exact ⟨hret, fun type hnot => absurd (mem_all type) hnot⟩
  · rename_i hpos
    rw [hpos] at hat
    exact ⟨hret, fun type => hat type not_mem_nil⟩
  · rename_i type types hpos
    rw [hpos] at hat
    split_ifs with hempty
    · refine ⟨hret, fun type' hnot => ?_⟩
      by_cases htype : type' = type
      · rw [htype]
        exact hempty
      · exact hat type' (by simp [htype, hnot])
    · exact ⟨hret, fun type hnot => absurd (mem_all type) hnot⟩
  · rename_i hpos
    rw [hpos] at hat
    exact ⟨hret, fun type => hat type not_mem_nil⟩
  · rename_i type types hpos
    rw [hpos] at hat
    refine ⟨hret, fun type' hnot => ?_⟩
    dsimp only
    by_cases htype : type' = type
    · rw [htype, update_self]
    · rw [update_of_ne htype]
      exact hat type' (by simp [htype, hnot])
  · rename_i type types hpos
    rw [hpos] at hat
    exact ⟨hret, hat⟩
  · rename_i type store types _ hpos
    rw [hpos] at hat
    split
    · exact ⟨hret, by rw [hpos]; exact hat⟩
    · exact ⟨hret, hat⟩

theorem Drained.step (h : s.Drained) (e : BatchEvent) : (s.step e).Drained := by
  cases e with
  | call =>
    rw [step_call_of_returned h.1]
    exact h
  | flush key fail => exact h.flush key fail

theorem drained_of_idle (hret : s.returned = true) (hidle : s.idle = true) (key : ℕ)
    (fail : Bool) : (s.step (.flush key fail)).Drained := by
  unfold step flush
  rw [flusher_of_idle hidle]
  exact ⟨hret, fun type hnot => absurd (mem_all type) hnot⟩

theorem Drained.nothing_left (h : s.Drained) (hidle : s.idle = true) (c : Counter) :
    s.stored c = 0 ∧ s.inFlight c = 0 ∧ s.outstanding c = 0 := by
  obtain ⟨hret, hat⟩ := h
  have hpos := flusher_of_idle hidle
  rw [hpos] at hat
  refine ⟨?_, ?_, ?_⟩
  · simp [stored, total, hat]
  · rw [inFlight, hpos]
  · refine sum_eq_zero fun x hx => ?_
    obtain ⟨rest, hrest, rfl⟩ := mem_map.1 hx
    have hempty := isEmpty_iff.1 (all_eq_true.1 hret _ hrest)
    rw [hempty]
    rfl

/-- What is left to do for the stores that are not yet swapped. -/
def swapRank (s : BatchState) (types : List BatchUpdateType) : ℕ :=
  (types.map fun type => (s.stores type).length + 2).sum + 1

/-- How many steps a run of `batchUpdate` has left at most. -/
def rank (s : BatchState) : ℕ :=
  match s.flusher with
  | .idle => 0
  | .checking types => types.length + 2 + s.swapRank BatchUpdateType.all
  | .swapping types => s.swapRank types
  | .flushing _ store types => store.length + 1 + s.swapRank types

theorem swapRank_update_nil_le (type : BatchUpdateType) (types : List BatchUpdateType)
    (flusher : FlusherAt) :
    { s with stores := update s.stores type [], flusher := flusher }.swapRank types
      ≤ s.swapRank types := by
  refine Nat.add_le_add_right (sum_le_sum fun type' _ => ?_) 1
  by_cases htype : type' = type
  · simp [htype]
  · simp [update_of_ne htype]

theorem rank_flush (h : s.idle = false) : (s.flush 0 false).rank < s.rank := by
  cases hat : s.flusher with
  | idle => simp [idle, hat] at h
  | checking types =>
    cases types with
    | nil => simp [flush, rank, hat]
    | cons =>
      unfold flush
      rw [hat]
      dsimp only
      split_ifs
      · simp [rank, hat, swapRank]
      · simp only [rank, hat, swapRank]
        omega
  | swapping types =>
    cases types with
    | nil => simp [flush, rank, hat, swapRank]
    | cons type types =>
      have hle := swapRank_update_nil_le (s := s) type types
        (.flushing type (s.stores type) types)
      simp only [flush, rank, hat]
      simp only [swapRank, map_cons, sum_cons] at hle ⊢
      omega
  | flushing _ store =>
    cases store with
    | nil | cons e store => simp [flush, rank, hat, swapRank]

theorem batchUpdate_completes : ∀ s : BatchState,
    ∃ n, (run step s (List.replicate n (.flush 0 false))).idle = true := by
  suffices h : ∀ (r : ℕ) (s : BatchState), s.rank ≤ r →
      ∃ n, (run step s (List.replicate n (.flush 0 false))).idle = true from
    fun s => h s.rank s le_rfl
  intro r
  induction r with
  | zero =>
    intro s hr
    cases hidle : s.idle with
    | true => exact ⟨0, hidle⟩
    | false => exact absurd (rank_flush hidle) (by omega)
  | succ _ ih =>
    intro s hr
    cases hidle : s.idle with
    | true => exact ⟨0, hidle⟩
    | false =>
      have hlt := rank_flush hidle
      obtain ⟨n, hn⟩ := ih (s.flush 0 false) (by omega)
      exact ⟨n + 1, hn⟩

end Drain

theorem runDirect_apply (c : Counter) : ∀ (calls : List BatchCall) (db : Counters),
    BatchCall.runDirect db calls c = db c + (calls.map fun call => call.direct c).sum
  | [], db => by simp [BatchCall.runDirect]
  | call :: calls, db => by
    have ih := runDirect_apply c calls (db + call.direct)
    rw [map_cons, sum_cons, ← add_assoc]
    exact ih

/-- Without failing statements: when all calls have returned, the next run of `batchUpdate`
completes, and the counters are then those of the calls with batch updates off. -/
theorem batched_refines_direct (db : Counters) (calls : List BatchCall) (es : List BatchEvent)
    (hes : ∀ e ∈ es, succeeds e = true)
    (hreturned : (run step (init db calls) es).returned = true)
    (hidle : (run step (init db calls) es).idle = true) :
    (∃ n, (run step (init db calls)
        (es ++ BatchEvent.flush 0 false :: List.replicate n (.flush 0 false))).idle = true) ∧
      ∀ (key : ℕ) (es' : List BatchEvent), (∀ e ∈ es', succeeds e = true) →
        (run step (init db calls) (es ++ BatchEvent.flush key false :: es')).idle = true →
        (run step (init db calls) (es ++ BatchEvent.flush key false :: es')).db
          = BatchCall.runDirect db calls := by
  constructor
  · obtain ⟨n, hn⟩ := batchUpdate_completes
      ((run step (init db calls) es).step (.flush 0 false))
    exact ⟨n, by rw [run_append, run_cons]; exact hn⟩
  · intro key es' hes' hdone
    have hall : ∀ e ∈ es ++ BatchEvent.flush key false :: es', succeeds e = true := by
      intro e he
      rcases mem_append.1 he with he | he
      · exact hes e he
      · rcases mem_cons.1 he with rfl | he
        · rfl
        · exact hes' e he
    have hlost : Along step (fun s e => s.nothingLost e = true) (init db calls)
        (es ++ BatchEvent.flush key false :: es') := by
      refine along_iff.2 fun pre e post he => nothingLost_of_succeeds (hall e ?_)
      rw [he]
      simp
    have hcons := Along.run_inv (I := Conserved db calls)
      (fun _ e h he => (conserved_step_iff e h).2 he) (Conserved.init db calls) hlost
    have hdrained :
        (run step (init db calls) (es ++ BatchEvent.flush key false :: es')).Drained := by
      rw [run_append, run_cons]
      exact run_inv (fun _ e h => h.step e) (drained_of_idle hreturned hidle key false) es'
    funext c
    obtain ⟨hstored, hflight, hout⟩ := hdrained.nothing_left hdone c
    have hc := hcons c
    rw [hstored, hflight, hout] at hc
    rw [runDirect_apply]
    linarith

def interleavedFlush : List BatchEvent :=
  [BatchEvent.call 0, .flush 0 false, .flush 0 false, .flush 0 false, .call 1, .call 2]
    ++ List.replicate 12 (BatchEvent.flush 0 false) ++ [BatchEvent.call 2]

def twoCharges : List BatchCall :=
  [.decreaseUserQuota 1 300, .decreaseUserQuota 1 200, .updateUserUsedQuotaAndRequestCount 1 300]

theorem batched_refines_direct_sample : (∃ n, (run step (init 0 twoCharges)
        (interleavedFlush ++ BatchEvent.flush 0 false
          :: List.replicate n (.flush 0 false))).idle = true) ∧
      ∀ (key : ℕ) (es' : List BatchEvent), (∀ e ∈ es', succeeds e = true) →
        (run step (init 0 twoCharges)
          (interleavedFlush ++ BatchEvent.flush key false :: es')).idle = true →
        (run step (init 0 twoCharges) (interleavedFlush ++ BatchEvent.flush key false :: es')).db
          = BatchCall.runDirect 0 twoCharges :=
  batched_refines_direct 0 twoCharges interleavedFlush (by decide) (by decide) (by decide)

end BatchState

end AggreApi
