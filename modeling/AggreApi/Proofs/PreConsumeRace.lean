import AggreApi.PreConsumeRace
import AggreApi.Proofs.Subscription
import AggreApi.Lib.Procs

/-!
# One record and one debit for a request

The insert of the record decides which of the calls debits, and whatever the others have written by
then is resets of rows the winner does not hold. A call whose insert is rejected returns the
subscription it chose itself, and a reset it saves after the winner's commit takes the debit away
again.
-/

namespace AggreApi

open List PendingTx

variable {a b sub : UserSubscription} {k : ℕ} {tx : PendingTx} {pos : PreConsumeAt}
  {record : SubscriptionPreConsumeRecord}

namespace PreConsumeRace

section Rows

variable {calls : List PreConsumeCall} {db₀ : Subscriptions}

def DueReset (calls : List PreConsumeCall) (a b : UserSubscription) : Prop :=
  ∃ c ∈ calls, afterDueReset c.env a = some b

/-- The row after some of the calls' resets. -/
def Resets (calls : List PreConsumeCall) : UserSubscription → UserSubscription → Prop :=
  Relation.ReflTransGen (DueReset calls)

theorem afterDueReset_eq {env : SubscriptionEnv}
    {plan : SubscriptionPlan} {saved : Bool} (hp : env.plan a.planId = .ok plan)
    (h : maybeResetUserSubscriptionWithPlanTx env a plan = some (b, saved)) :
    afterDueReset env a = some b := by
  simp [afterDueReset, hp, h]

theorem Resets.id_eq (h : Resets calls a b) : b.id = a.id := by
  induction h with
  | refl => rfl
  | tail _ hd ih =>
    obtain ⟨c, -, hd⟩ := hd
    unfold afterDueReset at hd
    split at hd
    · obtain ⟨⟨x, saved⟩, hm, rfl⟩ := Option.map_eq_some_iff.1 hd
      exact (maybeReset_id hm).trans ih
    · cases hd

def ResetOnly (calls : List PreConsumeCall) (before after : Table UserSubscription.id) (k : ℕ) :
    Prop :=
  before.find k = none ∧ after.find k = none ∨
    ∃ sub sub', before.find k = some sub ∧ Resets calls sub sub' ∧ after.find k = some sub'

structure DebitedOnce (calls : List PreConsumeCall) (amount : ℤ) (id : ℕ)
    (before after : Table UserSubscription.id) : Prop where
  row : ∃ sub sub', before.find id = some sub ∧ Resets calls sub sub' ∧
    after.find id = some (sub'.debit amount)
  others : ∀ k, k ≠ id → ResetOnly calls before after k

def FromInit (calls : List PreConsumeCall) (db₀ : Subscriptions) (row : UserSubscription) : Prop :=
  ∃ sub, db₀.subs.find row.id = some sub ∧ Resets calls sub row

theorem FromInit.reset {c : PreConsumeCall} (h : FromInit calls db₀ a)
    (hc : c ∈ calls) (hd : afterDueReset c.env a = some b) : FromInit calls db₀ b := by
  obtain ⟨sub, hsub, hr⟩ := h
  have hr' : Resets calls sub b := hr.tail ⟨c, hc, hd⟩
  refine ⟨sub, ?_, hr'⟩
  rw [hr'.id_eq, ← hr.id_eq]
  exact hsub

theorem FromInit.of_find {row : UserSubscription} (h : db₀.subs.find k = some row) :
    FromInit calls db₀ row := by
  refine ⟨row, ?_, .refl⟩
  rw [Table.key_of_find h]
  exact h

end Rows

section Ok

variable (requestId : String) (target : PreConsumeTarget) (calls : List PreConsumeCall)
  (db₀ : Subscriptions)

def Apart (committed : Option SubscriptionPreConsumeRecord) (id : ℕ) : Prop :=
  ∀ record, committed = some record → record.userSubscriptionId ≠ id

def ResetRows (committed : Option SubscriptionPreConsumeRecord) (rows : List UserSubscription) :
    Prop :=
  ∀ row ∈ rows, Apart committed row.id ∧ FromInit calls db₀ row

def Names (committed : Option SubscriptionPreConsumeRecord) (r : SubscriptionPreConsumeResult) :
    Prop :=
  ∃ record, committed = some record ∧ r.userSubscriptionId = record.userSubscriptionId ∧
    r.preConsumed = record.preConsumed

/-- The transaction of the call that debits, before its commit. -/
def Winning (c : PreConsumeCall) (tx : PendingTx) (r : SubscriptionPreConsumeResult) : Prop :=
  ∃ sub rows, tx.rows = sub.debit c.amount :: rows ∧ FromInit calls db₀ sub ∧
    ResetRows calls db₀ none rows ∧
    tx.record = some (PreConsumeProc.record requestId target c sub) ∧
    r.userSubscriptionId = sub.id ∧ r.preConsumed = c.amount

def Ok (committed : Option SubscriptionPreConsumeRecord) (c : PreConsumeCall) :
    PreConsumeAt → Prop
  | .finding => True
  | .reading existing => committed = some existing
  | .selecting => True
  | .trying subs tx => (∀ sub ∈ subs, Apart committed sub.id → FromInit calls db₀ sub) ∧
      ResetRows calls db₀ committed tx.rows ∧ tx.record = none
  | .inserting sub tx => (Apart committed sub.id → FromInit calls db₀ sub) ∧
      ResetRows calls db₀ committed tx.rows ∧ tx.record = none
  | .rejected _ _ tx => ResetRows calls db₀ committed tx.rows ∧ tx.record = none
  | .saving sub tx => committed = none ∧ FromInit calls db₀ sub ∧
      ResetRows calls db₀ committed tx.rows ∧
      tx.record = some (PreConsumeProc.record requestId target c sub)
  | .committing tx r =>
      ResetRows calls db₀ committed tx.rows ∧ tx.record = none ∧ Names committed r ∨
        committed = none ∧ Winning requestId target calls db₀ c tx r
  | .ended (.ok r) => Names committed r
  | .ended (.error _) => True

end Ok

variable (env : SubscriptionEnv)

def resetSaved (candidate : UserSubscription) : Bool :=
  match env.plan candidate.planId with
  | .ok plan => (maybeResetUserSubscriptionWithPlanTx env candidate plan).any Prod.snd
  | .error _ => false

/-- With a committed record the call saves no reset of the row it debited, and where its insert
was rejected it chose the record's subscription. -/
def agrees (record : SubscriptionPreConsumeRecord) (p : PreConsumeProc) : Bool :=
  match p.pos with
  | .trying (candidate :: _) _ =>
    record.userSubscriptionId ≠ candidate.id || !resetSaved p.call.env candidate
  | .rejected sub _ _ => record.userSubscriptionId = sub.id
  | _ => true

/-- The statement of the call agrees with the committed record. -/
def careful (requestId : String) (s : PreConsumeRace) (e : PreConsumeEvent) : Bool :=
  (s.db.records.find requestId).all fun record => s.procs[e.proc]?.all (agrees record)

section Statement

variable {requestId : String} {target : PreConsumeTarget} {calls : List PreConsumeCall}
  {db₀ db : Subscriptions} {committed : Option SubscriptionPreConsumeRecord}
  {c : PreConsumeCall} {e : PreConsumeEvent} {locked : ℕ → Bool} {held : Bool}

theorem resetRows_nil : ResetRows calls db₀ committed [] :=
  fun _ h => absurd h not_mem_nil

theorem ok_finish {dup : SubscriptionPreConsumeRecord} (ht : ResetRows calls db₀ committed tx.rows)
    (hn : tx.record = none) (hd : committed = some dup) (hid : dup.userSubscriptionId = sub.id) :
    Ok requestId target calls db₀ committed c (.finish tx (duplicateResult sub dup)) := by
  unfold duplicateResult
  split_ifs
  · trivial
  · exact .inl ⟨ht, hn, dup, hd, hid.symm, rfl⟩

theorem tryCandidate_cases (c : PreConsumeCall) (f : PreConsumeFaults) (locked : ℕ → Bool)
    (candidate : UserSubscription) (rest : List UserSubscription) (tx : PendingTx) :
    (∃ err, PreConsumeProc.tryCandidate c f locked candidate rest tx = .ended (.error err)) ∨
      PreConsumeProc.tryCandidate c f locked candidate rest tx = .trying (candidate :: rest) tx ∨
      ∃ plan sub saved tx', c.env.plan candidate.planId = .ok plan ∧
        maybeResetUserSubscriptionWithPlanTx c.env candidate plan = some (sub, saved) ∧
        (saved = false ∧ tx' = tx ∨ saved = true ∧ locked sub.id = false ∧ tx' = tx.save sub) ∧
        (PreConsumeProc.tryCandidate c f locked candidate rest tx = .inserting sub tx' ∨
          PreConsumeProc.tryCandidate c f locked candidate rest tx = .trying rest tx') := by
  unfold PreConsumeProc.tryCandidate
  rcases hplan : c.env.plan candidate.planId with err | plan
  · exact .inl ⟨err, rfl⟩
  rcases hreset : maybeResetUserSubscriptionWithPlanTx c.env candidate plan with _ | ⟨sub, saved⟩
  · exact .inr (.inl (by simp only [hreset]))
  simp only [hreset]
  rcases saved with _ | _
  · refine .inr (.inr ⟨plan, sub, false, tx, rfl, hreset, .inl ⟨rfl, rfl⟩, ?_⟩)
    rcases sub.hasRoom c.amount with _ | _
    · exact .inr rfl
    · exact .inl rfl
  rcases hwait : locked sub.id with _ | _
  · rcases f.reset sub.id with _ | err
    · refine .inr (.inr ⟨plan, sub, true, tx.save sub, rfl, hreset, .inr ⟨rfl, hwait, rfl⟩, ?_⟩)
      rcases sub.hasRoom c.amount with _ | _
      · exact .inr rfl
      · exact .inl rfl
    · exact .inl ⟨err, rfl⟩
  · exact .inr (.inl rfl)

theorem ok_tryCandidate {candidate : UserSubscription}
    {rest : List UserSubscription} (hc : c ∈ calls)
    (ha : ∀ record, committed = some record → agrees record ⟨c, .trying (candidate :: rest) tx⟩)
    (h : Ok requestId target calls db₀ committed c (.trying (candidate :: rest) tx)) :
    Ok requestId target calls db₀ committed c
      (PreConsumeProc.tryCandidate c e.faults locked candidate rest tx) := by
  rcases tryCandidate_cases c e.faults locked candidate rest tx with
    ⟨err, he⟩ | he | ⟨plan, sub, saved, tx', hplan, hreset, htx, he⟩
  · rw [he]
    trivial
  · rw [he]
    exact h
  obtain ⟨hsubs, hrows, hrec⟩ := h
  have hrest := fun sub hsub => hsubs sub (mem_cons_of_mem candidate hsub)
  rcases htx with ⟨rfl, rfl⟩ | ⟨rfl, -, rfl⟩
  · obtain rfl := maybeReset_unsaved hreset
    rcases he with he | he <;> rw [he]
    · exact ⟨hsubs sub mem_cons_self, hrows, hrec⟩
    · exact ⟨hrest, hrows, hrec⟩
  · have hsaved : resetSaved c.env candidate = true := by simp [resetSaved, hplan, hreset]
    have hapart : Apart committed candidate.id := by
      intro record hr
      simpa [agrees, hsaved] using ha record hr
    have hfrom := (hsubs candidate mem_cons_self hapart).reset hc
      (afterDueReset_eq hplan hreset)
    have hrows' : ResetRows calls db₀ committed (tx.save sub).rows := by
      intro row hmem
      rcases mem_cons.1 hmem with rfl | hmem
      · exact ⟨by rw [maybeReset_id hreset]; exact hapart, hfrom⟩
      · exact hrows row hmem
    rcases he with he | he <;> rw [he]
    · exact ⟨fun _ => hfrom, hrows', hrec⟩
    · exact ⟨hrest, hrows', hrec⟩

/-- The committed tables: the initial rows while there is no record, and one debit once there is. -/
def Tables (calls : List PreConsumeCall) (db₀ : Subscriptions) (requestId : String)
    (db : Subscriptions) : Prop :=
  match db.records.find requestId with
  | none => db.subs = db₀.subs
  | some record =>
    DebitedOnce calls record.preConsumed record.userSubscriptionId db₀.subs db.subs

theorem fromInit_of_tables (h : Tables calls db₀ requestId db)
    (hf : db.subs.find sub.id = some sub) (ha : Apart (db.records.find requestId) sub.id) :
    FromInit calls db₀ sub := by
  unfold Tables at h
  rcases hr : db.records.find requestId with _ | record <;> simp only [hr] at h ha
  · rw [h] at hf
    exact .of_find hf
  · rcases h.others sub.id (ha record rfl).symm with ⟨-, hnone⟩ | ⟨a, b, ha, hab, hb⟩
    · exact absurd (hf.symm.trans hnone) (by simp)
    · obtain rfl := Option.some.inj (hf.symm.trans hb)
      exact ⟨a, ha, hab⟩

theorem ok_advance (hc : c ∈ calls) (ht : Tables calls db₀ requestId db)
    (ha : ∀ record, db.records.find requestId = some record → agrees record ⟨c, pos⟩)
    (h : Ok requestId target calls db₀ (db.records.find requestId) c pos)
    (hcommit : ∀ tx r, pos = .committing tx r → e.faults.commit ≠ none) :
    Ok requestId target calls db₀ (db.records.find requestId) c
      (PreConsumeProc.advance requestId target c e db locked held pos) := by
  cases pos with
  | finding =>
    simp only [PreConsumeProc.advance]
    split
    · trivial
    split
    · trivial
    · trivial
    · rename_i existing _ hr
      split_ifs
      · trivial
      · exact hr
  | reading =>
    simp only [PreConsumeProc.advance]
    split
    · trivial
    · trivial
    · rename_i sub _ hs
      exact ok_finish resetRows_nil rfl h (Table.key_of_find hs).symm
  | selecting =>
    simp only [PreConsumeProc.advance]
    split
    · rename_i s ss _ hsubs
      refine ⟨fun sub hsub hapart => fromInit_of_tables ht ?_ hapart, resetRows_nil, rfl⟩
      exact mem_activeSubscriptions (hsubs ▸ hsub)
    · trivial
  | trying subs =>
    cases subs with
    | nil => trivial
    | cons => exact ok_tryCandidate hc ha h
  | inserting =>
    obtain ⟨hsub, hrows, hrec⟩ := h
    simp only [PreConsumeProc.advance]
    split_ifs
    · exact ⟨hsub, hrows, hrec⟩
    split
    · exact ⟨hrows, hrec⟩
    · exact ⟨hrows, hrec⟩
    · rename_i hr _
      exact ⟨hr, hsub (fun record hs => absurd (hr.symm.trans hs) (by simp)), hrows, rfl⟩
  | rejected =>
    obtain ⟨hrows, hrec⟩ := h
    simp only [PreConsumeProc.advance]
    split
    · rename_i dup _ hr
      exact ok_finish hrows hrec hr (by simpa [agrees] using ha dup hr)
    · trivial
  | saving sub tx =>
    simp only [PreConsumeProc.advance]
    split_ifs
    · exact h
    split
    · trivial
    · obtain ⟨hnone, hsub, hrows, hrec⟩ := h
      exact .inr ⟨hnone, sub, tx.rows, rfl, hsub, hnone ▸ hrows, hrec, rfl, rfl⟩
  | committing tx r =>
    simp only [PreConsumeProc.advance]
    split
    · trivial
    · rename_i hn
      exact absurd hn (hcommit tx r rfl)
  | ended => exact h

end Statement

/-- What a transaction holds after a statement. -/
structure Grows (locked : ℕ → Bool) (held : Bool) (before after : PendingTx) : Prop where
  rows : ∀ id, after.locks id = true → before.locks id = true ∨ locked id = false
  record : after.record.isSome = true → before.record.isSome = true ∨ held = false

section Grows

variable {requestId : String} {target : PreConsumeTarget} {db : Subscriptions}
  {c : PreConsumeCall} {e : PreConsumeEvent} {locked : ℕ → Bool} {held : Bool} {tx : PendingTx}

theorem grows_self : Grows locked held tx tx := ⟨fun _ => .inl, .inl⟩

theorem grows_empty : Grows locked held tx .empty :=
  ⟨fun _ h => absurd h (by simp [empty, locks]),
    fun h => absurd h (by simp [empty])⟩

theorem grows_save (h : locked sub.id = false) : Grows locked held tx (tx.save sub) := by
  refine ⟨fun id hid => ?_, .inl⟩
  simp only [locks, save, any_cons, Bool.or_eq_true,
    decide_eq_true_eq] at hid
  rcases hid with rfl | hid
  · exact .inr h
  · exact .inl hid

theorem grows_finish (r : Except String SubscriptionPreConsumeResult) :
    Grows locked held tx (PreConsumeAt.finish tx r).tx := by
  cases r with
  | ok => exact grows_self
  | error => exact grows_empty

theorem grows_advance (pos : PreConsumeAt) : Grows locked held pos.tx
      (PreConsumeProc.advance requestId target c e db locked held pos).tx := by
  cases pos with
  | trying subs tx =>
    cases subs with
    | nil => exact grows_empty
    | cons candidate rest =>
      rcases tryCandidate_cases c e.faults locked candidate rest tx with
        ⟨err, he⟩ | he | ⟨plan, sub, saved, tx', -, -, htx, he⟩
      · simp only [PreConsumeProc.advance, he]
        exact grows_empty
      · simp only [PreConsumeProc.advance, he]
        exact grows_self
      · have hg : Grows locked held tx tx' := by
          rcases htx with ⟨-, rfl⟩ | ⟨-, hl, rfl⟩
          · exact grows_self
          · exact grows_save hl
        rcases he with he | he <;> simp only [PreConsumeProc.advance, he] <;> exact hg
  | inserting =>
    simp only [PreConsumeProc.advance]
    split_ifs with hh
    · exact grows_self
    split
    · exact grows_self
    · exact grows_self
    · exact ⟨fun _ => .inl, fun _ => .inr (by simpa using hh)⟩
  | saving =>
    simp only [PreConsumeProc.advance]
    split_ifs with hl
    · exact grows_self
    split
    · exact grows_empty
    · exact grows_save (by simpa using hl)
  | ended => exact grows_self
  | _ =>
    simp only [PreConsumeProc.advance]
    repeat' split
    all_goals
      first
        | exact grows_empty
        | exact grows_finish _

end Grows

section Commit

variable {requestId : String} {target : PreConsumeTarget} {calls : List PreConsumeCall}
  {db₀ db : Subscriptions} {c : PreConsumeCall}

theorem find_putAll_cases (t : Table UserSubscription.id) (rows : List UserSubscription) (k : ℕ) :
    (∃ row ∈ rows, row.id = k ∧ (t.putAll rows).find k = (t.find k).map fun _ => row) ∨
      (∀ row ∈ rows, row.id ≠ k) ∧ (t.putAll rows).find k = t.find k := by
  rw [Table.find_putAll]
  rcases hf : rows.find? fun row => row.id = k with _ | row
  · refine .inr ⟨fun row hrow hid => ?_, by simp [hf]⟩
    simpa [hid] using find?_eq_none.1 hf row hrow
  · refine .inl ⟨row, mem_of_find?_eq_some hf, by simpa using find?_some hf, ?_⟩
    simp [hf]

theorem ResetOnly.refl (t : Table UserSubscription.id) (k : ℕ) : ResetOnly calls t t k := by
  rcases hf : t.find k with _ | sub
  · exact .inl ⟨hf, hf⟩
  · exact .inr ⟨sub, sub, hf, .refl, hf⟩

theorem ResetOnly.putAll {t : Table UserSubscription.id} {rows : List UserSubscription}
    (h : ResetOnly calls db₀.subs t k)
    (hrows : ∀ row ∈ rows, row.id = k → FromInit calls db₀ row) :
    ResetOnly calls db₀.subs (t.putAll rows) k := by
  unfold ResetOnly
  rcases find_putAll_cases t rows k with
    ⟨row, hrow, hid, he⟩ | ⟨-, he⟩ <;> rw [he]
  · rcases h with ⟨hnone, hnone'⟩ | ⟨sub, sub', -, -, hf'⟩
    · exact .inl ⟨hnone, by rw [hnone']; rfl⟩
    · obtain ⟨a, ha, har⟩ := hrows row hrow hid
      refine .inr ⟨a, row, ?_, har, by rw [hf']; rfl⟩
      rw [← hid]
      exact ha
  · exact h

theorem tables_commit_resets (ht : Tables calls db₀ requestId db)
    (hr : db.records.find requestId = some record)
    {rows : List UserSubscription} (hrows : ResetRows calls db₀ (some record) rows) :
    Tables calls db₀ requestId ⟨db.subs.putAll rows, db.records⟩ := by
  simp only [Tables, hr] at ht ⊢
  have hapart : ∀ row ∈ rows, row.id ≠ record.userSubscriptionId := fun row hrow =>
    ((hrows row hrow).1 record rfl).symm
  refine ⟨?_, fun k hk => (ht.others k hk).putAll
    fun row hrow _ => (hrows row hrow).2⟩
  obtain ⟨sub, sub', hsub, hreset, hf⟩ := ht.row
  rcases find_putAll_cases db.subs rows record.userSubscriptionId with
    ⟨row, hrow, hid, -⟩ | ⟨-, he⟩
  · exact absurd hid (hapart row hrow)
  · exact ⟨sub, sub', hsub, hreset, he.trans hf⟩

theorem tables_commit_winning (ht : Tables calls db₀ requestId db)
    (hr : db.records.find requestId = none) {r : SubscriptionPreConsumeResult}
    (hw : Winning requestId target calls db₀ c tx r) :
    Tables calls db₀ requestId (tx.commit db) ∧
      Names ((tx.commit db).records.find requestId) r ∧
      (∀ record, (tx.commit db).records.find requestId = some record →
        tx.locks record.userSubscriptionId = true) := by
  obtain ⟨sub, rows, htx, ⟨a, ha, har⟩, hrows, hrec, hid, hamount⟩ := hw
  have hfind : (tx.commit db).records.find requestId =
      some (PreConsumeProc.record requestId target c sub) := by
    simp only [commit, hrec, Option.elim_some]
    exact Table.find_insert_self (a := PreConsumeProc.record requestId target c sub) hr
  have hsubs : (tx.commit db).subs = (db₀.subs.putAll rows).put (sub.debit c.amount) := by
    simp only [Tables, hr] at ht
    rw [← ht, commit, htx]
    rfl
  refine ⟨?_, ⟨_, hfind, hid, hamount⟩, fun record h => ?_⟩
  · simp only [Tables, hfind, hsubs, PreConsumeProc.record]
    refine ⟨⟨a, sub, ha, har, ?_⟩, fun k hk => ?_⟩
    · rcases hrow : (db₀.subs.putAll rows).find sub.id with _ | row
      · rw [Table.find_putAll, ha] at hrow
        cases hrow
      · exact Table.find_put_self (a := sub.debit c.amount) hrow
    · have hk' : k ≠ (sub.debit c.amount).id := hk
      rw [ResetOnly, Table.find_put_of_ne _ hk']
      exact (ResetOnly.refl db₀.subs k).putAll fun row hrow _ => (hrows row hrow).2
  · obtain rfl := Option.some.inj (hfind.symm.trans h)
    simp [PendingTx.locks, htx, PreConsumeProc.record]

theorem resetRows_after
    (h : ResetRows calls db₀ none tx.rows) (hl : tx.locks record.userSubscriptionId = false) :
    ResetRows calls db₀ (some record) tx.rows := by
  intro row hrow
  refine ⟨fun record' he hid => ?_, (h row hrow).2⟩
  cases he
  simp only [locks, any_eq_false, decide_eq_true_eq] at hl
  exact hl row hrow hid.symm

theorem ok_after (h : Ok requestId target calls db₀ none c pos) (hn : pos.tx.record.isSome = false)
    (hl : pos.tx.locks record.userSubscriptionId = false) :
    Ok requestId target calls db₀ (some record) c pos := by
  have hapart : ∀ id, Apart none id := fun id record' he => absurd he (by simp)
  cases pos with
  | finding => trivial
  | reading => exact absurd h (by simp [Ok])
  | selecting => trivial
  | trying =>
    exact ⟨fun sub hsub _ => h.1 sub hsub (hapart _), resetRows_after h.2.1 hl, h.2.2⟩
  | inserting => exact ⟨fun _ => h.1 (hapart _), resetRows_after h.2.1 hl, h.2.2⟩
  | rejected => exact ⟨resetRows_after h.1 hl, h.2⟩
  | saving _ tx =>
    obtain ⟨-, -, -, hrec⟩ := h
    simp [PreConsumeAt.tx, hrec] at hn
  | committing tx =>
    rcases h with ⟨-, -, record', hs, -⟩ | ⟨-, sub, rows, -, -, -, hrec, -⟩
    · cases hs
    · simp [PreConsumeAt.tx, hrec] at hn
  | ended r =>
    cases r with
    | ok =>
      obtain ⟨record', hs, -⟩ := h
      cases hs
    | error => trivial

end Commit

section Run

variable {requestId : String} {target : PreConsumeTarget} {calls : List PreConsumeCall}
  {db₀ : Subscriptions} {s : PreConsumeRace} {e : PreConsumeEvent} {p : PreConsumeProc}

/-- The tables, what every call knows, and that no two transactions hold a row or the request
id. -/
structure Inv (requestId : String) (target : PreConsumeTarget) (calls : List PreConsumeCall)
    (db₀ : Subscriptions) (s : PreConsumeRace) : Prop where
  started : ∀ p ∈ s.procs, p.call ∈ calls
  tables : Tables calls db₀ requestId s.db
  ok : ∀ p ∈ s.procs, Ok requestId target calls db₀ (s.db.records.find requestId) p.call p.pos
  rows : Exclusive (fun p id => p.pos.tx.locks id = true) s.procs
  record : Exclusive (fun p (_ : Unit) => p.pos.tx.record.isSome = true) s.procs

theorem inv_init (calls : List PreConsumeCall) (hr : db₀.records.find requestId = none) :
    Inv requestId target calls db₀ (init db₀ calls) := by
  have hpos : ∀ p ∈ (init db₀ calls).procs, p.call ∈ calls ∧ p.pos = .finding := by
    intro p hp
    obtain ⟨c, hc, rfl⟩ := mem_map.1 hp
    exact ⟨hc, rfl⟩
  refine ⟨fun p hp => (hpos p hp).1, ?_, fun p hp => ?_, fun i j p q _ hi hj id h => ?_,
    fun i j p q _ hi hj _ h => ?_⟩
  · simp [Tables, init, hr]
  · rw [(hpos p hp).2]
    trivial
  · simp [(hpos p (mem_of_getElem? hi)).2, PreConsumeAt.tx, empty,
      locks] at h
  · simp [(hpos p (mem_of_getElem? hi)).2, PreConsumeAt.tx, empty] at h

theorem Inv.set (h : Inv requestId target calls db₀ s) (hk : s.procs[k]? = some p)
    {db : Subscriptions} (ht : Tables calls db₀ requestId db)
    (hg : Grows (s.locked k) (s.held k) p.pos.tx pos.tx)
    (hpos : Ok requestId target calls db₀ (db.records.find requestId) p.call pos)
    (hothers : ∀ j q, j ≠ k → s.procs[j]? = some q →
      Ok requestId target calls db₀ (db.records.find requestId) q.call q.pos) :
    Inv requestId target calls db₀ ⟨db, s.procs.set k ⟨p.call, pos⟩⟩ := by
  refine ⟨fun q hq => ?_, ht, fun q hq => ?_, h.rows.set hk fun id hid => ?_,
    h.record.set hk fun _ hrec => ?_⟩
  · rcases mem_or_eq_of_mem_set hq with hq | rfl
    · exact h.started q hq
    · exact h.started p (mem_of_getElem? hk)
  · obtain ⟨j, hj⟩ := mem_iff_getElem?.1 hq
    rcases getElem?_set_cases hj with ⟨-, rfl⟩ | ⟨hne, hj⟩
    · exact hpos
    · exact hothers j q hne hj
  · refine (hg.rows id hid).imp_right fun hfree => ?_
    simpa only [locked, any_eq_false] using hfree
  · refine (hg.record hrec).imp_right fun hfree => ?_
    simpa only [held, any_eq_false] using hfree

theorem Inv.advance (h : Inv requestId target calls db₀ s) (hp : s.procs[e.proc]? = some p)
    (hc : careful requestId s e)
    (hcommit : ∀ tx r, p.pos = .committing tx r → e.faults.commit ≠ none) :
    Inv requestId target calls db₀ (step requestId target s e) := by
  have hdb : PreConsumeProc.committed e s.db p.pos = s.db := by
    unfold PreConsumeProc.committed
    split
    · rename_i tx r hpos
      exact if_neg fun hn => hcommit tx r hpos (by simpa using hn)
    · rfl
  simp only [step, hp, hdb]
  have hmem := mem_of_getElem? hp
  refine h.set hp h.tables (grows_advance p.pos) ?_ fun j q _ hj => h.ok q (mem_of_getElem? hj)
  refine ok_advance (h.started p hmem) h.tables (fun record hr => ?_) (h.ok p hmem) hcommit
  simpa only [careful, hr, hp, Option.all_some] using hc

theorem Inv.commit (h : Inv requestId target calls db₀ s) (hp : s.procs[e.proc]? = some p)
    {r : SubscriptionPreConsumeResult} (hpos : p.pos = .committing tx r)
    (hcommit : e.faults.commit = none) :
    Inv requestId target calls db₀ (step requestId target s e) := by
  have hok := h.ok p (mem_of_getElem? hp)
  simp only [step, hp, hpos, PreConsumeProc.committed, PreConsumeProc.advance, hcommit,
    Option.isNone_none, if_true]
  rw [hpos] at hok
  rcases hok with ⟨hrows, hrec, hnames⟩ | ⟨hnone, hw⟩
  · obtain ⟨record, hr, -⟩ := id hnames
    have hdb : tx.commit s.db = ⟨s.db.subs.putAll tx.rows, s.db.records⟩ := by
      simp [PendingTx.commit, hrec]
    rw [hdb]
    exact h.set hp (tables_commit_resets h.tables hr (hr ▸ hrows)) grows_empty hnames
      fun j q _ hj => h.ok q (mem_of_getElem? hj)
  · obtain ⟨ht, hnames, hlocks⟩ := tables_commit_winning h.tables hnone hw
    obtain ⟨record, hr, -⟩ := id hnames
    refine h.set hp ht grows_empty hnames fun j q hne hj => ?_
    rw [hr]
    have hq := h.ok q (mem_of_getElem? hj)
    rw [hnone] at hq
    refine ok_after hq ?_ ?_
    · have htx : p.pos.tx.record.isSome = true := by
        obtain ⟨sub, rows, -, -, -, hrec, -⟩ := hw
        simp [hpos, PreConsumeAt.tx, hrec]
      exact Bool.eq_false_iff.2 (h.record _ _ _ _ hne.symm hp hj () htx)
    · have htx : p.pos.tx.locks record.userSubscriptionId = true := by
        rw [hpos]
        exact hlocks record hr
      exact Bool.eq_false_iff.2 (h.rows _ _ _ _ hne.symm hp hj _ htx)

theorem Inv.step (h : Inv requestId target calls db₀ s) (hc : careful requestId s e) :
    Inv requestId target calls db₀ (step requestId target s e) := by
  rcases hp : s.procs[e.proc]? with _ | p
  · simpa only [PreConsumeRace.step, hp] using h
  by_cases hcommit : ∀ tx r, p.pos = .committing tx r → e.faults.commit ≠ none
  · exact h.advance hp hc hcommit
  · push Not at hcommit
    obtain ⟨tx, r, hpos, hn⟩ := hcommit
    exact h.commit hp hpos hn

/-- In every run whose statements agree with the committed record: once a call has returned, there
is a record, its subscription alone is debited by its amount, and every result names both. -/
theorem results_name_one_debit (hr : db₀.records.find requestId = none)
    (calls : List PreConsumeCall) (es : List PreConsumeEvent)
    (ha : Along (PreConsumeRace.step requestId target) (fun s e => careful requestId s e)
      (init db₀ calls) es) {k : ℕ} {c : PreConsumeCall} {r : SubscriptionPreConsumeResult}
    (hk : (run (PreConsumeRace.step requestId target) (init db₀ calls) es).procs[k]? =
      some ⟨c, .ended (.ok r)⟩) :
    let s := run (PreConsumeRace.step requestId target) (init db₀ calls) es
    ∃ record, s.db.records.find requestId = some record ∧
      DebitedOnce calls record.preConsumed record.userSubscriptionId db₀.subs s.db.subs ∧
      ∀ (j : ℕ) (c' : PreConsumeCall) (r' : SubscriptionPreConsumeResult),
        s.procs[j]? = some ⟨c', .ended (.ok r')⟩ →
          r'.userSubscriptionId = record.userSubscriptionId ∧
            r'.preConsumed = record.preConsumed := by
  intro s
  have hinv : Inv requestId target calls db₀ s :=
    ha.run_inv (I := Inv requestId target calls db₀) (fun _ _ h hc => h.step hc)
      (inv_init calls hr)
  obtain ⟨record, hrec, -⟩ := hinv.ok _ (mem_of_getElem? hk)
  refine ⟨record, hrec, ?_, fun j c' r' hj => ?_⟩
  · simpa only [Tables, hrec] using hinv.tables
  · obtain ⟨record', hrec', hid, hamount⟩ := hinv.ok _ (mem_of_getElem? hj)
    obtain rfl := Option.some.inj (hrec.symm.trans hrec')
    exact ⟨hid, hamount⟩

def pairOfSubs : Subscriptions where
  subs := ⟨[⟨1, 7, 0, 1, 100, 20, 0, 2000, .active, 0, 500⟩,
    ⟨2, 7, 0, 1, 200, 20, 0, 3000, .active, 0, 500⟩], by simp⟩
  records := ⟨[], nodup_nil⟩

/-- Two calls for eighty, and the run in which they take their statements in the given order. -/
def eighties : List PreConsumeCall := [⟨env, 80⟩, ⟨env, 80⟩]

def interleave (order : List ℕ) : PreConsumeRace :=
  run (PreConsumeRace.step "a" (.user 7)) (init pairOfSubs (eighties env))
    (order.map fun k => ⟨k, noPreConsumeFaults, none⟩)

def results (s : PreConsumeRace) : List (Option (ℕ × ℤ)) :=
  s.procs.map fun p => match p.pos with
    | .ended (.ok r) => some (r.userSubscriptionId, r.preConsumed)
    | _ => none

theorem same_choice_one_debit : let s := interleave noonEnv [0, 1, 0, 1, 0, 1, 0, 1, 0, 0, 1, 1, 1]
    results s = [some (1, 80), some (1, 80)] ∧
    ∃ record, s.db.records.find "a" = some record ∧
      DebitedOnce (eighties noonEnv) record.preConsumed record.userSubscriptionId
        pairOfSubs.subs s.db.subs ∧
      ∀ (j : ℕ) (c' : PreConsumeCall) (r' : SubscriptionPreConsumeResult),
        s.procs[j]? = some ⟨c', .ended (.ok r')⟩ →
          r'.userSubscriptionId = record.userSubscriptionId ∧
            r'.preConsumed = record.preConsumed :=
  ⟨by decide, results_name_one_debit (by decide) (eighties noonEnv) _ (by decide)
    (k := 1) (c := ⟨noonEnv, 80⟩) (r := ⟨1, 80, 100, 20, 20⟩) rfl⟩

/-- The second call selects its candidates after the first has used up the first subscription. -/
theorem rejected_call_names_its_own :
    let s := interleave noonEnv [1, 0, 0, 0, 0, 0, 0, 1, 1, 1, 1, 1, 1]
    results s = [some (1, 80), some (2, 80)] ∧
      (s.db.records.find "a").map SubscriptionPreConsumeRecord.userSubscriptionId = some 1 := by
  decide

end Run

end PreConsumeRace

end AggreApi
