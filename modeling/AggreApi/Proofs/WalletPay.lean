import AggreApi.WalletPay
import AggreApi.Proofs.UserGroup

/-!
# A wallet purchase is all or nothing

Each call holds its cost from the commit of the deduction to the refund, or for good, less the
reward an invitee is credited for the purchase. The deduction is checked on the row it locks, so it
never leaves the quota below zero.
-/

namespace AggreApi

open List Table WalletShop

namespace WalletPayAt

def held : WalletPayAt → ℤ
  | paid quotaCost | activating quotaCost _ | refunding quotaCost | settling quotaCost _
  | crediting quotaCost _ => quotaCost
  | bought quotaCost _ reward => quotaCost - reward
  | _ => 0

def subId : WalletPayAt → Option ℕ
  | settling _ id | crediting _ id => some id
  | bought _ id _ => id
  | _ => none

def inTx : WalletPayAt → Bool
  | committing _ _ => true
  | _ => false

end WalletPayAt

namespace WalletShop

variable (cfg : WalletPaySettings) (old : List GroupSubscription) (db : GroupDb)
  (req : WalletPayRequest)

def Fits (order : PlanOrder) : Prop :=
  order.tradeNo = req.tradeNo ∧ order.userId = cfg.userId ∧ order.teamId = req.teamId

/-- The order of a request is stored with a status. -/
def HasOrder (status : TopUpStatus) : Prop :=
  ∃ order, db.orders.find req.tradeNo = some order ∧ Fits cfg req order ∧ order.status = status

/-- The subscription bought with a request is there, active, and is none of the old ones. -/
def HasSub (id : ℕ) : Prop :=
  (∃ sub, db.subs.find id = some sub ∧ sub.status = .active ∧ sub.userId = cfg.userId ∧
    sub.teamId = req.teamId) ∧ ∀ sub ∈ old, sub.id ≠ id

/-- What is stored for a call, by where it is. -/
def ProcOk (p : WalletPayProc) : Prop :=
  match p.pos with
  | .starting => db.orders.find p.req.tradeNo = none
  | .ordering order quotaCost | .deducting order quotaCost | .committing order quotaCost =>
    db.orders.find p.req.tradeNo = none ∧ Fits cfg p.req order ∧ order.status = .pending ∧
      0 < quotaCost
  | .paid quotaCost | .refunding quotaCost => HasOrder cfg db p.req .pending ∧ 0 < quotaCost
  | .activating quotaCost a =>
    HasOrder cfg db p.req .pending ∧ 0 < quotaCost ∧ Fits cfg p.req a.order
  | .expiring => HasOrder cfg db p.req .pending
  | .settling _ id | .crediting _ id =>
    HasOrder cfg db p.req .success ∧ HasSub cfg old db p.req id
  | .bought _ id reward =>
    HasOrder cfg db p.req .success ∧ (∃ i, id = some i ∧ HasSub cfg old db p.req i) ∧
      (reward = 0 ∨ 0 < cfg.quotaForInvitee ∧ reward = cfg.quotaForInvitee)
  | .failed _ => ∀ order, db.orders.find p.req.tradeNo = some order → order.status ≠ .success

/-- The books of the shop, where the quota was `quota` and the subscriptions `old`. -/
structure Inv (cfg : WalletPaySettings) (quota : ℤ) (old : List GroupSubscription)
    (s : WalletShop) : Prop where
  money : s.row.quota + (s.procs.map fun p => p.pos.held).sum = quota
  count : s.db.subs.rows.length = old.length + s.procs.countP fun p => p.pos.subId.isSome
  kept : ∀ sub ∈ old, sub ∈ s.db.subs.rows
  procs : ∀ p ∈ s.procs, ProcOk cfg old s.db p
  trades : Exclusive (fun p t => p.req.tradeNo = t) s.procs
  subs : Exclusive (fun p id => p.pos.subId = some id) s.procs
  lock : Exclusive (fun p (_ : Unit) => p.pos.inTx = true) s.procs
  funded : ∀ p ∈ s.procs, ∀ order quotaCost, p.pos = .committing order quotaCost →
    quotaCost ≤ s.row.quota

section Step

variable {env : GroupEnv} {cfg : WalletPaySettings} {quota : ℤ} {old : List GroupSubscription}
  {s s' : WalletShop} {i : ℕ} {p q : WalletPayProc} {pos : WalletPayAt} {db db' : GroupDb}
  {req : WalletPayRequest} {order : PlanOrder} {quotaCost : ℤ} {id : ℕ}

theorem locked_eq_false_iff : s.locked = false ↔ ∀ q ∈ s.procs, q.pos.inTx = false := by
  unfold locked
  rw [any_eq_false]
  refine forall₂_congr fun q _ => ?_
  cases q.pos <;> simp [WalletPayAt.inTx]

theorem HasSub.mono (h : HasSub cfg old db req id)
    (hsubs : ∀ sub ∈ db.subs.rows, sub ∈ db'.subs.rows) : HasSub cfg old db' req id := by
  obtain ⟨⟨sub, hfind, hsub⟩, hold⟩ := h
  have hmem := hsubs sub (mem_of_find hfind)
  have hid := key_of_find hfind
  exact ⟨⟨sub, hid ▸ find_of_mem hmem, hsub⟩, hold⟩

theorem ProcOk.frame (h : ProcOk cfg old db q)
    (horders : db'.orders.find q.req.tradeNo = db.orders.find q.req.tradeNo)
    (hsubs : ∀ sub ∈ db.subs.rows, sub ∈ db'.subs.rows) : ProcOk cfg old db' q := by
  unfold ProcOk HasOrder at h ⊢
  rw [horders]
  split at h
  all_goals
    first
      | exact h
      | exact ⟨h.1, h.2.mono hsubs⟩
      | exact ⟨h.1, h.2.1.imp fun _ hid => ⟨hid.1, hid.2.mono hsubs⟩, h.2.2⟩

theorem ProcOk.hasSub (h : ProcOk cfg old db q) (hid : q.pos.subId = some id) :
    HasSub cfg old db q.req id := by
  unfold ProcOk at h
  cases hpos : q.pos <;> rw [hpos] at h hid <;> try cases hid
  · exact h.2
  · exact h.2
  · obtain ⟨-, ⟨i, hi, hsub⟩, -⟩ := h
    cases hi
    exact hsub

theorem Inv.of_move (pos : WalletPayAt) (h : s.Inv cfg quota old) (hp : s.procs[i]? = some p)
    (hprocs : s'.procs = (s.move i p pos).procs)
    (hmoney : s'.row.quota + pos.held = s.row.quota + p.pos.held)
    (hcount : s'.db.subs.rows.length + (if p.pos.subId.isSome then 1 else 0)
      = s.db.subs.rows.length + if pos.subId.isSome then 1 else 0)
    (hrows : ∀ sub ∈ s.db.subs.rows, sub ∈ s'.db.subs.rows)
    (horders : ∀ t, t ≠ p.req.tradeNo → s'.db.orders.find t = s.db.orders.find t)
    (hproc : ProcOk cfg old s'.db { p with pos := pos })
    (hsub : ∀ id, pos.subId = some id → p.pos.subId = some id ∨ s.db.subs.find id = none)
    (hrow : s'.row.quota = s.row.quota ∨ s.locked = false ∨ p.pos.inTx = true)
    (htx : pos.inTx = true → s.locked = false ∧
      ∀ order quotaCost, pos = .committing order quotaCost → quotaCost ≤ s'.row.quota) :
    s'.Inv cfg quota old := by
  refine ⟨?_, ?_, fun sub hold => hrows sub (h.kept sub hold), ?_, ?_, ?_, ?_, ?_⟩ <;>
    (try rw [hprocs]) <;> (try unfold move) <;> dsimp only
  · have hsum := sum_map_set { p with pos := pos } (fun p => p.pos.held) hp
    have hm := h.money
    rw [hsum]
    dsimp only
    omega
  · have hc := countP_set_add { p with pos := pos } (fun p => p.pos.subId.isSome) hp
    have hc' := h.count
    dsimp only at hc
    omega
  · intro q hq
    obtain ⟨j, hj⟩ := mem_iff_getElem?.1 hq
    rcases getElem?_set_cases hj with ⟨-, rfl⟩ | ⟨hji, hj'⟩
    · exact hproc
    · refine (h.procs q (mem_of_getElem? hj')).frame (horders _ fun ht => ?_) hrows
      exact h.trades j i q p hji hj' hp _ ht rfl
  · exact h.trades.set hp fun t ht => .inl ht
  · refine h.subs.set hp fun id hid => (hsub id hid).imp_right fun hnone q hq hqid => ?_
    obtain ⟨⟨sub, hfind, -⟩, -⟩ := (h.procs q (mem_of_mem_eraseIdx hq)).hasSub hqid
    rw [hnone] at hfind
    cases hfind
  · refine h.lock.set hp fun _ hin => .inr fun q hq => ?_
    rw [locked_eq_false_iff.1 (htx hin).1 q (mem_of_mem_eraseIdx hq)]
    exact Bool.false_ne_true
  · intro q hq order quotaCost hqpos
    obtain ⟨j, hj⟩ := mem_iff_getElem?.1 hq
    rcases getElem?_set_cases hj with ⟨-, rfl⟩ | ⟨hji, hj'⟩
    · exact (htx (congrArg WalletPayAt.inTx hqpos)).2 order quotaCost hqpos
    · have hqmem := mem_of_getElem? hj'
      have hqtx : q.pos.inTx = true := by rw [hqpos]; rfl
      rcases hrow with hrow | hfree | hin
      · rw [hrow]
        exact h.funded q hqmem order quotaCost hqpos
      · rw [locked_eq_false_iff.1 hfree q hqmem] at hqtx
        cases hqtx
      · exact absurd hin (h.lock j i q p hji hj' hp () hqtx)

theorem Inv.quiet (h : s.Inv cfg quota old) (hp : s.procs[i]? = some p)
    (hheld : pos.held = p.pos.held) (hid : pos.subId = p.pos.subId)
    (hproc : ProcOk cfg old s.db { p with pos := pos }) (htx : pos.inTx = false) :
    (s.move i p pos).Inv cfg quota old :=
  h.of_move pos hp rfl (by rw [hheld]; rfl) (by rw [hid]; rfl) (fun _ hsub => hsub) (fun _ _ => rfl)
    hproc (fun id hsub => .inl (hid ▸ hsub)) (.inl rfl) fun hin => by rw [htx] at hin; cases hin

theorem Inv.fail (h : s.Inv cfg quota old) (hp : s.procs[i]? = some p) (hheld : p.pos.held = 0)
    (hid : p.pos.subId = none) (hnone : s.db.orders.find p.req.tradeNo = none) (msg : String) :
    (s.move i p (.failed msg)).Inv cfg quota old := by
  refine h.quiet hp hheld.symm hid.symm (fun order hfind => ?_) rfl
  rw [hnone] at hfind
  cases hfind

theorem quotaCost_pos {plan : PricedPlan}
    (h : cfg.accept req = .ok plan) : 0 < cfg.quotaCost plan := by
  unfold WalletPaySettings.accept at h
  iterate 7
    split at h
    · cases h
  rename_i hcost
  cases h
  omega

theorem readPlanOrder_cases {tradeNo : String} {plan : Except String SalePlan} {now : ℤ}
    {read : Option Activation} (h : db.readPlanOrder env tradeNo plan now = .ok read) :
    ∃ order, db.orders.find tradeNo = some order ∧
      (read = none ∧ order.status = .success ∨ ∃ a, read = some a ∧ a.order = order) := by
  unfold GroupDb.readPlanOrder at h
  split at h
  · cases h
  split at h
  · cases h
  rename_i order hfind
  refine ⟨order, hfind, ?_⟩
  split at h
  · rename_i hsuccess
    exact .inl ⟨(Except.ok.inj h).symm, hsuccess⟩
  split at h
  · cases h
  split at h
  · cases h
  split at h
  · cases h
  · cases h
  exact .inr ⟨_, (Except.ok.inj h).symm, rfl⟩

theorem orders_activate (a : Activation) : (db.activate env a).orders
    = db.orders.put { a.order with completeTime := a.now, status := .success } := by
  unfold GroupDb.activate
  dsimp only
  split_ifs <;> rfl

theorem subs_activate (a : Activation) :
    (db.activate env a).subs = db.subs.insert (db.activated env a) := by
  unfold GroupDb.activate
  dsimp only
  split_ifs <;> rfl

theorem rows_activate (env : GroupEnv) (db : GroupDb) (a : Activation) :
    (db.activate env a).subs.rows = db.subs.rows ++ [db.activated env a] := by
  have hfresh : db.subs.find (db.activated env a).id = none := find_nextId db.subs
  rw [subs_activate, Table.insert, dif_pos hfresh]

theorem Inv.commit (h : s.Inv cfg quota old)
    (hp : s.procs[i]? = some ⟨req, .committing order quotaCost⟩) :
    { (s.move i ⟨req, .committing order quotaCost⟩ (.paid quotaCost)).addQuota (-quotaCost) with
      db := { s.db with orders := s.db.orders.insert order } }.Inv cfg quota old := by
  obtain ⟨hnone, hfits, hpending, hcost⟩ := h.procs _ (mem_of_getElem? hp)
  have hkey : s.db.orders.find order.tradeNo = none := by rw [hfits.1]; exact hnone
  refine h.of_move (.paid quotaCost) hp rfl ?_ rfl (fun _ hsub => hsub)
    (fun t ht => find_insert_of_ne _ (by rw [hfits.1]; exact ht)) ?_
    nofun (.inr (.inr rfl)) nofun
  · change s.row.quota + -quotaCost + quotaCost = s.row.quota + 0
    omega
  · refine ⟨⟨order, ?_, hfits, hpending⟩, hcost⟩
    change (s.db.orders.insert order).find req.tradeNo = some order
    rw [← hfits.1]
    exact find_insert_self hkey

theorem Inv.activate (h : s.Inv cfg quota old) {a : Activation}
    (hp : s.procs[i]? = some ⟨req, .activating quotaCost a⟩) :
    { s.move i ⟨req, .activating quotaCost a⟩ (.settling quotaCost s.db.freshId) with
      db := s.db.activate env a }.Inv cfg quota old := by
  obtain ⟨⟨order, hfind, -, -⟩, hcost, hfits⟩ := h.procs _ (mem_of_getElem? hp)
  have hfresh : s.db.subs.find s.db.freshId = none := find_nextId s.db.subs
  have hrows := rows_activate env s.db a
  refine h.of_move (.settling quotaCost s.db.freshId) hp rfl rfl ?_ ?_ ?_
    ⟨?_, ?_, ?_⟩ (fun id hid => .inr ?_) (.inl rfl) nofun
  · change (s.db.activate env a).subs.rows.length + 0 = s.db.subs.rows.length + 1
    rw [hrows, length_append]
    rfl
  · intro sub hsub
    change sub ∈ (s.db.activate env a).subs.rows
    rw [hrows]
    exact mem_append_left _ hsub
  · intro t ht
    change (s.db.activate env a).orders.find t = _
    rw [orders_activate]
    exact find_put_of_ne _ (by rw [hfits.1]; exact ht)
  · refine ⟨{ a.order with completeTime := a.now, status := .success }, ?_, hfits, rfl⟩
    change (s.db.activate env a).orders.find req.tradeNo = _
    rw [orders_activate, ← hfits.1]
    exact find_put_self (by rw [hfits.1]; exact hfind)
  · refine ⟨s.db.activated env a, ?_, rfl, hfits.2.1, hfits.2.2⟩
    change (s.db.activate env a).subs.find s.db.freshId = _
    rw [subs_activate]
    exact find_insert_self hfresh
  · intro sub hold hid
    have hmem := find_of_mem (h.kept sub hold)
    rw [hid, hfresh] at hmem
    cases hmem
  · cases hid
    exact hfresh

section
variable (h : s.Inv cfg quota old)
include h

theorem Inv.expire (hp : s.procs[i]? = some ⟨req, .expiring⟩) (msg : String) (now : ℤ) :
    { s.move i ⟨req, .expiring⟩ (.failed msg) with
      db := s.db.expirePlanOrder req.tradeNo now }.Inv cfg quota old := by
  obtain ⟨order, hfind, hfits, hpending⟩ := h.procs _ (mem_of_getElem? hp)
  have hdb : s.db.expirePlanOrder req.tradeNo now = { s.db with
      orders := s.db.orders.put { order with completeTime := now, status := .expired } } := by
    unfold GroupDb.expirePlanOrder
    rw [hfind]
    exact if_neg (not_not.2 hpending)
  have hput : (s.db.orders.put { order with completeTime := now, status := .expired }).find
      order.tradeNo = some { order with completeTime := now, status := .expired } :=
    find_put_self (by rw [hfits.1]; exact hfind)
  rw [hdb]
  refine h.of_move (.failed msg) hp rfl rfl rfl (fun _ hsub => hsub)
    (fun t ht => find_put_of_ne _ (by rw [hfits.1]; exact ht)) (fun order' hfind' => ?_)
    nofun (.inl rfl) nofun
  change (s.db.orders.put _).find req.tradeNo = _ at hfind'
  rw [← hfits.1] at hfind'
  obtain rfl := Option.some.inj (hfind'.symm.trans hput)
  exact nofun

theorem Inv.refund (hp : s.procs[i]? = some ⟨req, .refunding quotaCost⟩) (hfree : s.locked = false)
    : ((s.move i ⟨req, .refunding quotaCost⟩ .expiring).addQuota quotaCost).Inv cfg quota old := by
  refine h.of_move .expiring hp rfl ?_ rfl (fun _ hsub => hsub) (fun _ _ => rfl)
    (h.procs _ (mem_of_getElem? hp)).1 nofun (.inr (.inl hfree))
    nofun
  change s.row.quota + quotaCost + 0 = s.row.quota + quotaCost
  omega

theorem Inv.settle (hp : s.procs[i]? = some ⟨req, .settling quotaCost id⟩) :
    { s.move i ⟨req, .settling quotaCost id⟩ (.crediting quotaCost id) with
      row := { s.row with affRewardSettled := true } }.Inv cfg quota old := by
  have hok := h.procs _ (mem_of_getElem? hp)
  exact h.of_move (.crediting quotaCost id) hp rfl rfl rfl (fun _ hsub => hsub) (fun _ _ => rfl)
    hok (fun _ hid => .inl hid) (.inl rfl) nofun

theorem Inv.credit (hp : s.procs[i]? = some ⟨req, .crediting quotaCost id⟩)
    (hreward : 0 < cfg.quotaForInvitee) (hfree : s.locked = false) :
    ((s.move i ⟨req, .crediting quotaCost id⟩
      (.bought quotaCost (some id) cfg.quotaForInvitee)).addQuota
      cfg.quotaForInvitee).Inv cfg quota old := by
  obtain ⟨horder, hsub⟩ := h.procs _ (mem_of_getElem? hp)
  refine h.of_move (.bought quotaCost (some id) cfg.quotaForInvitee) hp rfl ?_ rfl
    (fun _ hsub => hsub) (fun _ _ => rfl) ⟨horder, ⟨id, rfl, hsub⟩, .inr ⟨hreward, rfl⟩⟩
    (fun _ hid => .inl hid) (.inr (.inl hfree)) nofun
  change s.row.quota + cfg.quotaForInvitee + (quotaCost - cfg.quotaForInvitee)
    = s.row.quota + quotaCost
  omega

end

theorem Inv.read (h : s.Inv cfg quota old) (hp : s.procs[i]? = some ⟨req, .paid quotaCost⟩)
    {plan : Except String SalePlan} {now : ℤ} {read : Option Activation}
    (hread : s.db.readPlanOrder env req.tradeNo plan now = .ok read) :
    ∃ a, read = some a ∧ Fits cfg req a.order := by
  obtain ⟨⟨order, hfind, hfits, hpending⟩, -⟩ := h.procs _ (mem_of_getElem? hp)
  obtain ⟨o, ho, hcases⟩ := readPlanOrder_cases hread
  obtain rfl := Option.some.inj (hfind.symm.trans ho)
  rcases hcases with ⟨-, hsuccess⟩ | ⟨a, hsome, rfl⟩
  · rw [hpending] at hsuccess
    cases hsuccess
  · exact ⟨a, hsome, hfits⟩

theorem Inv.advance (h : s.Inv cfg quota old) (e : WalletPayEvent)
    (hp : s.procs[e.proc]? = some p) : (s.advance env cfg e p).Inv cfg quota old := by
  have hok := h.procs p (mem_of_getElem? hp)
  obtain ⟨req, pos⟩ := p
  unfold advance
  cases pos with
  | starting =>
    dsimp only
    split
    · exact h.fail hp rfl rfl hok _
    · rename_i plan haccept
      exact h.quiet hp rfl rfl ⟨hok, ⟨rfl, rfl, rfl⟩, rfl, quotaCost_pos haccept⟩ rfl
  | ordering =>
    dsimp only
    split_ifs
    · exact h.fail hp rfl rfl hok.1 _
    · exact h.quiet hp rfl rfl hok rfl
  | deducting =>
    dsimp only
    split_ifs with hlock hf hquota
    · exact h
    · exact h.fail hp rfl rfl hok.1 _
    · exact h.fail hp rfl rfl hok.1 _
    · refine h.of_move _ hp rfl rfl rfl (fun _ hsub => hsub) (fun _ _ => rfl) hok
        (fun _ hid => .inl hid) (.inl rfl)
        fun _ => ⟨Bool.eq_false_iff.2 hlock, fun o c hc => ?_⟩
      obtain ⟨-, rfl⟩ := WalletPayAt.committing.inj hc
      exact not_lt.1 hquota
  | committing =>
    dsimp only
    split_ifs
    · exact h.fail hp rfl rfl hok.1 _
    · exact h.commit hp
  | paid quotaCost =>
    have hrefund :
        (s.move e.proc ⟨req, .paid quotaCost⟩ (.refunding quotaCost)).Inv cfg quota old :=
      h.quiet hp rfl rfl hok rfl
    dsimp only
    split_ifs
    · exact hrefund
    split
    · exact hrefund
    · rename_i hread
      obtain ⟨a, hnone, -⟩ := h.read hp hread
      cases hnone
    · rename_i a hread
      obtain ⟨_, hsome, hfits⟩ := h.read hp hread
      cases hsome
      exact h.quiet hp rfl rfl ⟨hok.1, hok.2, hfits⟩ rfl
  | activating =>
    dsimp only
    split_ifs
    · exact h.quiet hp rfl rfl ⟨hok.1, hok.2.1⟩ rfl
    · exact h.activate hp
  | refunding =>
    dsimp only
    split_ifs with hlock
    · exact h
    · exact h.refund hp (Bool.eq_false_iff.2 hlock)
  | expiring => exact h.expire hp _ _
  | settling _ id =>
    dsimp only
    split_ifs
    · exact h.quiet hp (sub_zero _) rfl ⟨hok.1, ⟨id, rfl, hok.2⟩, .inl rfl⟩ rfl
    · exact h
    · exact h.quiet hp (sub_zero _) rfl ⟨hok.1, ⟨id, rfl, hok.2⟩, .inl rfl⟩ rfl
    · exact h.settle hp
  | crediting _ id =>
    dsimp only
    split_ifs with hreward hlock
    · exact h.quiet hp (sub_zero _) rfl ⟨hok.1, ⟨id, rfl, hok.2⟩, .inl rfl⟩ rfl
    · exact h
    · exact h.credit hp (not_le.1 hreward) (Bool.eq_false_iff.2 hlock)
  | bought => exact h
  | failed => exact h

theorem Inv.step (h : s.Inv cfg quota old) (e : WalletPayEvent) :
    (s.step env cfg e).Inv cfg quota old := by
  unfold WalletShop.step
  split
  · exact h
  · rename_i p hp
    exact h.advance e hp

theorem Inv.quota_step (h : s.Inv cfg quota old) (env : GroupEnv) (e : WalletPayEvent) :
    s.row.quota ≤ (s.step env cfg e).row.quota ∨ 0 ≤ (s.step env cfg e).row.quota := by
  unfold WalletShop.step
  split
  · exact .inl le_rfl
  rename_i p hp
  have hmem := mem_of_getElem? hp
  obtain ⟨req, pos⟩ := p
  unfold WalletShop.advance
  cases pos with
  | committing order quotaCost =>
    have hle := h.funded _ hmem order quotaCost rfl
    dsimp only
    split_ifs
    · exact .inl le_rfl
    · refine .inr ?_
      change 0 ≤ s.row.quota + -quotaCost
      omega
  | refunding quotaCost =>
    have hcost := (h.procs _ hmem).2
    dsimp only
    split_ifs
    · exact .inl le_rfl
    · refine .inl ?_
      change s.row.quota ≤ s.row.quota + quotaCost
      omega
  | crediting =>
    dsimp only
    split_ifs with hreward
    · exact .inl le_rfl
    · exact .inl le_rfl
    · refine .inl ?_
      change s.row.quota ≤ s.row.quota + cfg.quotaForInvitee
      omega
  | paid =>
    dsimp only
    split_ifs
    · exact .inl le_rfl
    · split <;> exact .inl le_rfl
  | starting =>
    dsimp only
    split <;> exact .inl le_rfl
  | _ =>
    dsimp only
    try split_ifs
    all_goals exact .inl le_rfl

end Step

theorem exclusive_of_nodup {reqs : List WalletPayRequest}
    (h : (reqs.map fun req => req.tradeNo).Nodup) :
    Exclusive (fun p t => p.req.tradeNo = t)
      (reqs.map fun req => (⟨req, .starting⟩ : WalletPayProc)) := by
  intro i j a b hij ha hb t hat hbt
  rw [getElem?_map] at ha hb
  obtain ⟨x, hx, rfl⟩ := Option.map_eq_some_iff.1 ha
  obtain ⟨y, hy, rfl⟩ := Option.map_eq_some_iff.1 hb
  have hx' : (reqs.map fun req => req.tradeNo)[i]? = some t := by
    rw [getElem?_map, hx, ← hat]
    rfl
  have hy' : (reqs.map fun req => req.tradeNo)[j]? = some t := by
    rw [getElem?_map, hy, ← hbt]
    rfl
  obtain ⟨hi, -⟩ := List.getElem?_eq_some_iff.1 hx'
  exact hij ((getElem?_inj hi h).1 (hx'.trans hy'.symm))

theorem Inv.init (cfg : WalletPaySettings) (row : UserRow) (db : GroupDb)
    {reqs : List WalletPayRequest} (hdistinct : (reqs.map fun req => req.tradeNo).Nodup)
    (hnew : ∀ req ∈ reqs, db.orders.find req.tradeNo = none) :
    (init row db reqs).Inv cfg row.quota db.subs.rows := by
  have hmem : ∀ p ∈ (WalletShop.init row db reqs).procs,
      p.pos = .starting ∧ db.orders.find p.req.tradeNo = none := by
    intro p hp
    obtain ⟨req, hreq, rfl⟩ := mem_map.1 hp
    exact ⟨rfl, hnew req hreq⟩
  have hpos : ∀ (i : ℕ) (p : WalletPayProc),
      (WalletShop.init row db reqs).procs[i]? = some p → p.pos = .starting :=
    fun i p hp => (hmem p (mem_of_getElem? hp)).1
  refine ⟨?_, ?_, fun _ hsub => hsub, ?_, exclusive_of_nodup hdistinct, ?_, ?_, ?_⟩
  · simp [WalletShop.init, Function.comp_def, WalletPayAt.held]
  · simp [WalletShop.init, countP_map, Function.comp_def, WalletPayAt.subId]
  · intro p hp
    rw [ProcOk, (hmem p hp).1]
    exact (hmem p hp).2
  · intro i j p q _ hi _ id hid
    rw [hpos i p hi] at hid
    cases hid
  · intro i j p q _ hi _ _ hin
    rw [hpos i p hi] at hin
    cases hin
  · intro p hp order quotaCost hcommit
    rw [(hmem p hp).1] at hcommit
    cases hcommit

/-- A purchase that went through. -/
def Bought (s : WalletShop) (req : WalletPayRequest) (id : ℕ) : Prop :=
  (∃ order, s.db.orders.find req.tradeNo = some order ∧ order.status = .success) ∧
    (∃ sub, s.db.subs.find id = some sub ∧ sub.status = .active ∧ sub.userId = cfg.userId ∧
      sub.teamId = req.teamId) ∧ ∀ sub ∈ old, sub.id ≠ id

def emptyShop : GroupDb :=
  ⟨⟨[], nodup_nil⟩, ⟨[], nodup_nil⟩, fun _ => "default", fun _ => none, 0⟩

def dollarPlan : WalletPayRequest :=
  ⟨1, 0, .ok ⟨samplePlan 1 "", true, 1⟩, none, "SUBUSR2WALLET1"⟩

def rewarding : WalletPaySettings := ⟨⟨2, 500000, 0, 100000, false, []⟩, true⟩

/-- Steps of the call without a failure. -/
def smoothly (n : ℕ) : List WalletPayEvent := List.replicate n ⟨0, 10, false, .ok (samplePlan 1 "")⟩

end WalletShop

end AggreApi
