import AggreApi.Proofs.UserGroup

/-!
# The group follows the active subscriptions

Between runs the group of a user may lag behind, but only while a subscription that lifted the user
is due. Whatever ends one computes the group anew, and a purchase keeps it right where it is right.
-/

namespace AggreApi

open GroupSubscription

variable {s sub : GroupSubscription} {plan : SalePlan} {e : GroupEvent}

namespace GroupDb

def Elevating (u : ℕ) (s : GroupSubscription) : Prop :=
  s.userId = u ∧ s.teamId = 0 ∧ s.upgradeGroup ≠ ""

/-- In the default group without an active subscription that names one, and otherwise in a group
of those that rank highest. -/
structure Follows (env : GroupEnv) (u : ℕ) (now : ℤ) (db : GroupDb) : Prop where
  default : db.activeUpgradeGroups u now 0 = [] → db.group u = commonUserGroupDefault
  highest : db.activeUpgradeGroups u now 0 ≠ [] → db.group u ∈ db.activeUpgradeGroups u now 0 ∧
    ∀ g ∈ db.activeUpgradeGroups u now 0, env.groupRank (db.group u) ≤ env.groupRank g

variable {env : GroupEnv} {u : ℕ} {now : ℤ} {db done : GroupDb}

theorem mem_activeUpgradeGroups_excluding {g : String} {x : ℕ} :
    g ∈ db.activeUpgradeGroups u now x ↔
      ∃ s ∈ db.subs.rows, Elevating u s ∧ s.status = .active ∧ now < s.endTime ∧
        (0 < x → s.id ≠ x) ∧ s.upgradeGroup = g := by
  simp only [activeUpgradeGroups, upgrades, List.mem_map, List.mem_filter,
    decide_eq_true_eq, Elevating]
  constructor
  · rintro ⟨s, ⟨hs, hu, ht, ha, he, hg, hx⟩, rfl⟩
    exact ⟨s, hs, ⟨hu, ht, hg⟩, ha, he, hx, rfl⟩
  · rintro ⟨s, hs, ⟨hu, ht, hg⟩, ha, he, hx, rfl⟩
    exact ⟨s, ⟨hs, hu, ht, ha, he, hg, hx⟩, rfl⟩

theorem mem_activeUpgradeGroups {g : String} : g ∈ db.activeUpgradeGroups u now 0 ↔
      ∃ s ∈ db.subs.rows, Elevating u s ∧ s.status = .active ∧ now < s.endTime ∧
        s.upgradeGroup = g := by
  simp [mem_activeUpgradeGroups_excluding, lt_self_iff_false]

theorem Follows.congr {now' : ℤ} (h : db.Follows env u now)
    (hmem : ∀ g, g ∈ done.activeUpgradeGroups u now' 0 ↔ g ∈ db.activeUpgradeGroups u now 0)
    (hg : done.group u = db.group u) : done.Follows env u now' := by
  have hnil : done.activeUpgradeGroups u now' 0 = [] ↔ db.activeUpgradeGroups u now 0 = [] := by
    simp [List.eq_nil_iff_forall_not_mem, hmem]
  constructor
  · intro hempty
    rw [hg]
    exact h.default (hnil.1 hempty)
  · intro hne
    obtain ⟨hin, hmin⟩ := h.highest fun he => hne (hnil.2 he)
    rw [hg]
    exact ⟨(hmem _).2 hin, fun g hgmem => hmin g ((hmem g).1 hgmem)⟩

theorem Follows.of_resolved (gs : List String) (hnamed : ∀ g ∈ gs, GroupEnv.Named g)
    (hmem : ∀ g, g ∈ gs ↔ g ∈ done.activeUpgradeGroups u now 0)
    (hg : done.group u = env.resolveUserGroupFromActive (env.distinct gs)) :
    done.Follows env u now := by
  constructor
  · intro hempty
    have hdistinct : env.distinct gs = [] := by
      simp [List.eq_nil_iff_forall_not_mem, env.mem_distinct, hmem, hempty]
    rw [hg, hdistinct]
    rfl
  · intro hne
    have hdistinct : env.distinct gs ≠ [] := by
      obtain ⟨g, hgmem⟩ := List.exists_mem_of_ne_nil _ hne
      exact List.ne_nil_of_mem ((env.mem_distinct gs g).2 ((hmem g).2 hgmem))
    obtain ⟨hin, hmin⟩ := env.resolveUserGroupFromActive_mem
      (fun g hgmem => hnamed g ((env.mem_distinct gs g).1 hgmem)) hdistinct
    rw [hg]
    exact ⟨(hmem _).1 ((env.mem_distinct gs _).1 hin),
      fun g hgmem => hmin g ((env.mem_distinct gs g).2 ((hmem g).2 hgmem))⟩

/-- The groups are names, active ones have an end, and the group is right unless one is due. -/
structure Inv (env : GroupEnv) (u : ℕ) (now : ℤ) (db : GroupDb) : Prop where
  named : ∀ s ∈ db.subs.rows, Elevating u s → trimSpace s.upgradeGroup = s.upgradeGroup
  ends : ∀ s ∈ db.subs.rows, Elevating u s → s.status = .active → 0 < s.endTime
  follows : (∀ s ∈ db.subs.rows, Elevating u s → s.due now = false) → db.Follows env u now

theorem not_due_iff (ha : s.status = .active) (he : 0 < s.endTime) :
    s.due now = false ↔ now < s.endTime := by
  simp [due, ha, he]

section
variable (h : db.Inv env u now)
include h

theorem Inv.active_named (t : ℤ) : ∀ g ∈ db.activeUpgradeGroups u t 0, GroupEnv.Named g := by
  intro g hg
  obtain ⟨s, hs, he, -, -, rfl⟩ := mem_activeUpgradeGroups.1 hg
  exact ⟨h.named s hs he, he.2.2⟩

theorem Inv.mono {t : ℤ} (ht : now ≤ t) : db.Inv env u t := by
  refine ⟨h.named, h.ends, fun hdue => ?_⟩
  have hend : ∀ s ∈ db.subs.rows, Elevating u s → s.status = .active → t < s.endTime :=
    fun s hs he ha => (not_due_iff ha (h.ends s hs he ha)).1 (hdue s hs he)
  have hnow : ∀ s ∈ db.subs.rows, Elevating u s → s.due now = false := by
    intro s hs he
    by_cases ha : s.status = .active
    · have := hend s hs he ha
      exact (not_due_iff ha (h.ends s hs he ha)).2 (by omega)
    · simp [due, ha]
  refine (h.follows hnow).congr (fun g => ?_) rfl
  rw [mem_activeUpgradeGroups, mem_activeUpgradeGroups]
  constructor
  · rintro ⟨s, hs, he, ha, hlt, hg⟩
    exact ⟨s, hs, he, ha, by omega, hg⟩
  · rintro ⟨s, hs, he, ha, -, hg⟩
    exact ⟨s, hs, he, ha, hend s hs he ha, hg⟩

theorem Inv.frame (hrows : ∀ s, Elevating u s → (s ∈ done.subs.rows ↔ s ∈ db.subs.rows))
    (hg : done.group u = db.group u) : done.Inv env u now := by
  refine ⟨fun s hs he => h.named s ((hrows s he).1 hs) he,
    fun s hs he => h.ends s ((hrows s he).1 hs) he, fun hdue => ?_⟩
  have hfollows := h.follows fun s hs he => hdue s ((hrows s he).2 hs) he
  refine hfollows.congr (fun g => ?_) hg
  rw [mem_activeUpgradeGroups, mem_activeUpgradeGroups]
  constructor
  · rintro ⟨s, hs, he, hrest⟩
    exact ⟨s, (hrows s he).1 hs, he, hrest⟩
  · rintro ⟨s, hs, he, hrest⟩
    exact ⟨s, (hrows s he).2 hs, he, hrest⟩

theorem Inv.of_follows
    (hrows : ∀ s ∈ done.subs.rows, Elevating u s → s ∈ db.subs.rows ∨ s.status ≠ .active ∧ ∃ r ∈
    db.subs.rows, Elevating u r ∧ s.upgradeGroup = r.upgradeGroup)
    (hfollows : done.Follows env u now) : done.Inv env u now := by
  refine ⟨fun s hs he => ?_, fun s hs he ha => ?_, fun _ => hfollows⟩
  · rcases hrows s hs he with hold | ⟨-, r, hr, hre, hg⟩
    · exact h.named s hold he
    · rw [hg]
      exact h.named r hr hre
  · rcases hrows s hs he with hold | ⟨hne, -⟩
    · exact h.ends s hold he ha
    · exact absurd ha hne

end

structure RowEnded (db : GroupDb) (sub : GroupSubscription) (done : GroupDb) : Prop where
  others : ∀ s : GroupSubscription, s.id ≠ sub.id → (s ∈ done.subs.rows ↔ s ∈ db.subs.rows)
  row : ∀ s ∈ done.subs.rows, s.id = sub.id → s.status ≠ .active ∧
    s.userId = sub.userId ∧ s.teamId = sub.teamId ∧ s.upgradeGroup = sub.upgradeGroup

theorem RowEnded.of_cancel (h : done.subs = (db.cancel sub now).subs) : db.RowEnded sub done := by
  refine ⟨fun s hs => ?_, fun s hs hid => ?_⟩ <;> rw [h] at *
  · exact Table.mem_put_of_ne hs
  · obtain ⟨r, -, hr⟩ := List.mem_map.1 hs
    split_ifs at hr with hkey
    · subst hr
      exact ⟨by simp, rfl, rfl, rfl⟩
    · subst hr
      exact absurd hid hkey

theorem RowEnded.of_erase (h : done.subs = db.subs.erase sub.id) : db.RowEnded sub done := by
  refine ⟨fun s hs => ?_, fun s hs hid => ?_⟩ <;> rw [h] at *
  · rw [Table.mem_erase]
    exact and_iff_left hs
  · exact absurd hid (Table.mem_erase.1 hs).2

theorem RowEnded.elevating (h : db.RowEnded sub done)
    (hs : s ∈ done.subs.rows) (hid : s.id = sub.id) (he : Elevating u s) : Elevating u sub := by
  obtain ⟨-, huser, hteam, hg⟩ := h.row s hs hid
  exact ⟨huser ▸ he.1, hteam ▸ he.2.1, hg ▸ he.2.2⟩

theorem Inv.row_ended_frame (h : db.Inv env u now)
    (hmem : sub ∈ db.subs.rows) (hrow : db.RowEnded sub done) (hne : ¬Elevating u sub)
    (hg : done.group u = db.group u) : done.Inv env u now := by
  refine h.frame (fun s he => ?_) hg
  by_cases hid : s.id = sub.id
  · constructor
    · intro hs
      exact absurd (hrow.elevating hs hid he) hne
    · intro hs
      have hsub : s = sub := Table.eq_of_key hs hmem hid
      exact absurd (hsub ▸ he) hne
  · exact hrow.others s hid

theorem Inv.ended (h : db.Inv env u now)
    {subs : Table fun s : GroupSubscription => s.id} (hmem : sub ∈ db.subs.rows)
    (hid : 0 < sub.id) (hrow : db.RowEnded sub done)
    (hend : db.Ended sub (db.remainingGroup env sub.userId now sub.id) subs done) :
    done.Inv env u now := by
  have hgroup := hend.group
  by_cases hblank : trimSpace sub.upgradeGroup = ""
  · rw [if_pos hblank] at hgroup
    refine h.row_ended_frame hmem hrow (fun he => he.2.2 ?_) (by rw [hgroup])
    rw [← h.named sub hmem he, hblank]
  rw [if_neg hblank] at hgroup
  by_cases huser : sub.userId = u
  · refine h.of_follows (fun s hs he => ?_) ?_
    · by_cases hs' : s.id = sub.id
      · exact .inr ⟨(hrow.row s hs hs').1, sub, hmem, hrow.elevating hs hs' he,
          (hrow.row s hs hs').2.2.2⟩
      · exact .inl ((hrow.others s hs').1 hs)
    · refine Follows.of_resolved (db.activeUpgradeGroups u now sub.id) ?_ ?_ ?_
      · intro g hg
        obtain ⟨s, hs, he, ha, hlt, -, hg⟩ := mem_activeUpgradeGroups_excluding.1 hg
        exact h.active_named now g (mem_activeUpgradeGroups.2 ⟨s, hs, he, ha, hlt, hg⟩)
      · intro g
        rw [mem_activeUpgradeGroups_excluding, mem_activeUpgradeGroups]
        constructor
        · rintro ⟨s, hs, he, ha, hlt, hx, hg⟩
          exact ⟨s, (hrow.others s (hx hid)).2 hs, he, ha, hlt, hg⟩
        · rintro ⟨s, hs, he, ha, hlt, hg⟩
          have hs' : s.id ≠ sub.id := fun hs' => (hrow.row s hs hs').1 ha
          exact ⟨s, (hrow.others s hs').1 hs, he, ha, hlt, fun _ => hs', hg⟩
      · rw [hgroup, huser, Function.update_self, remainingGroup]
  · refine h.row_ended_frame hmem hrow (fun he => huser he.1) ?_
    rw [hgroup, Function.update_of_ne (Ne.symm huser)]

theorem mem_expireUser {v : ℕ} :
    s ∈ (db.expireUser env now v).subs.rows ↔ ∃ r ∈ db.subs.rows, r.expireFor v now = s := by
  rw [expireUser_subs]
  simp [markExpired, Table.map]

theorem expireFor_of_ne {v : ℕ} (h : s.userId ≠ v) : s.expireFor v now = s := by
  rw [expireFor, if_neg (fun hs => h hs.1)]

theorem userId_expireFor (s : GroupSubscription) (v : ℕ) (now : ℤ) :
    (s.expireFor v now).userId = s.userId := by
  unfold expireFor
  split_ifs <;> rfl

theorem Inv.expireUser (h : db.Inv env u now) (v : ℕ) :
    (db.expireUser env now v).Inv env u now := by
  by_cases huv : u = v
  · subst huv
    refine h.of_follows (fun s hs he => ?_) ?_
    · obtain ⟨r, hr, rfl⟩ := mem_expireUser.1 hs
      unfold expireFor at he ⊢
      split_ifs at he ⊢
      · exact .inr ⟨by simp, r, hr, he, rfl⟩
      · exact .inl hr
    · refine Follows.of_resolved _ (h.active_named now) ?_ ?_
      · intro g
        rw [expireUser_activeUpgradeGroups]
      · rw [expireUser_group, if_pos rfl, remainingGroup]
  · refine h.frame (fun s he => ?_) (by rw [expireUser_group, if_neg huv])
    rw [mem_expireUser]
    constructor
    · rintro ⟨r, hr, rfl⟩
      have hne : r.userId ≠ v := by
        rw [← userId_expireFor r v now, he.1]
        exact huv
      rwa [expireFor_of_ne hne]
    · intro hs
      exact ⟨s, hs, expireFor_of_ne (by rw [he.1]; exact huv)⟩

theorem Inv.expired (h : db.Inv env u now) {limit : ℤ}
    (hreach : (∃ s ∈ db.subs.rows, s.userId = u ∧ s.due now = true) →
      u ∈ db.batchUsers now limit) :
    (expireDueSubscriptions env db limit now).1.Inv env u now ∧
      (expireDueSubscriptions env db limit now).1.Follows env u now := by
  constructor
  · rw [expireDueSubscriptions, foldl_expire_fst]
    exact run_inv (I := Inv env u now) (fun _ v hs => hs.expireUser v) h _
  · have hgroup := expireDueSubscriptions_group env db now limit u
    by_cases hu : u ∈ db.batchUsers now limit
    · rw [if_pos hu] at hgroup
      refine Follows.of_resolved _ (h.active_named now) (fun g => ?_) hgroup
      rw [expireDueSubscriptions_activeUpgradeGroups]
    · rw [if_neg hu] at hgroup
      have hnone : ∀ s ∈ db.subs.rows, Elevating u s → s.due now = false := by
        intro s hs he
        rw [Bool.eq_false_iff]
        exact fun hdue => hu (hreach ⟨s, hs, he.1, hdue⟩)
      refine (h.follows hnone).congr (fun g => ?_) hgroup
      rw [expireDueSubscriptions_activeUpgradeGroups]

theorem find_freshId (db : GroupDb) : db.subs.find db.freshId = none :=
  Table.find_nextId db.subs

section
variable (h : db.Inv env u now)
include h

theorem Inv.insert_frame (hsubs : done.subs = db.subs.insert sub) (hne : ¬Elevating u sub)
    (hg : done.group u = db.group u) : done.Inv env u now := by
  refine h.frame (fun s he => ?_) hg
  rw [hsubs]
  constructor
  · intro hs
    rcases Table.mem_insert hs with hold | rfl
    · exact hold
    · exact absurd he hne
  · intro hs
    exact Table.mem_insert_of_mem hs sub

theorem groupOnBuy_cases (hplan : trimSpace plan.upgradeGroup ≠ "")
    (hranks : ranksAmongActive env db u plan now = true) (hfollows : db.Follows env u now) :
    (groupOnBuy env db u plan = trimSpace plan.upgradeGroup ∧
      ∀ g ∈ db.activeUpgradeGroups u now 0,
        env.groupRank (trimSpace plan.upgradeGroup) ≤ env.groupRank g) ∨
    (groupOnBuy env db u plan = db.group u ∧ db.activeUpgradeGroups u now 0 ≠ [] ∧
      env.groupRank (db.group u) ≤ env.groupRank (trimSpace plan.upgradeGroup)) := by
  have hcurrent : trimSpace (db.group u) = db.group u ∧ db.group u ≠ "" ∧
      (db.activeUpgradeGroups u now 0 = [] →
        env.equalFold (db.group u) commonUserGroupDefault = true) := by
    by_cases hempty : db.activeUpgradeGroups u now 0 = []
    · rw [hfollows.default hempty]
      exact ⟨by decide, by decide, fun _ => env.equalFold_refl _⟩
    · have hnamed := h.active_named now _ (hfollows.highest hempty).1
      exact ⟨hnamed.1, hnamed.2, fun he => absurd he hempty⟩
  obtain ⟨htrim, hne, hdefault⟩ := hcurrent
  have hranks' := of_decide_eq_true hranks
  rw [htrim] at hranks'
  rw [groupOnBuy, if_neg hplan, GroupEnv.resolveUserGroupOnBuy]
  simp only [trimSpace_trimSpace, htrim, if_neg hplan, hne, false_or]
  split_ifs with hfold hlt
  · exact .inl ⟨rfl, hranks' hfold⟩
  · refine .inl ⟨rfl, fun g hg => ?_⟩
    have hmin := (hfollows.highest (List.ne_nil_of_mem hg)).2 g hg
    omega
  · exact .inr ⟨rfl, fun he => hfold (hdefault he), not_lt.1 hlt⟩

theorem Inv.bought_group (hsubs : done.subs = db.subs.insert sub)
    (hfresh : db.subs.find sub.id = none) (hgroup : done.group u = groupOnBuy env db u plan)
    (helev : Elevating u sub) (hsub : sub.upgradeGroup = trimSpace plan.upgradeGroup)
    (hactive : sub.status = .active) (hend : 0 < sub.endTime)
    (hranks : ranksAmongActive env db u plan now = true) : done.Inv env u now := by
  have hrows : ∀ s, s ∈ done.subs.rows ↔ s ∈ db.subs.rows ∨ s = sub := by
    intro s
    rw [hsubs]
    exact Table.mem_insert_iff hfresh
  have hplan : trimSpace plan.upgradeGroup ≠ "" := hsub ▸ helev.2.2
  refine ⟨fun s hs he => ?_, fun s hs he ha => ?_, fun hdue => ?_⟩
  · rcases (hrows s).1 hs with hold | rfl
    · exact h.named s hold he
    · rw [hsub, trimSpace_trimSpace]
  · rcases (hrows s).1 hs with hold | rfl
    · exact h.ends s hold he ha
    · exact hend
  have hfollows := h.follows fun s hs he => hdue s ((hrows s).2 (.inl hs)) he
  have hlt : now < sub.endTime :=
    (not_due_iff hactive hend).1 (hdue sub ((hrows sub).2 (.inr rfl)) helev)
  have hmem : ∀ g, g ∈ done.activeUpgradeGroups u now 0 ↔
      g ∈ db.activeUpgradeGroups u now 0 ∨ g = trimSpace plan.upgradeGroup := by
    intro g
    simp only [mem_activeUpgradeGroups, hrows, or_and_right, exists_or]
    refine or_congr_right ⟨?_, ?_⟩
    · rintro ⟨s, rfl, -, -, -, rfl⟩
      exact hsub
    · rintro rfl
      exact ⟨sub, rfl, helev, hactive, hlt, hsub⟩
  have hnew := (hmem _).2 (.inr rfl)
  refine ⟨fun hempty => absurd hempty (List.ne_nil_of_mem hnew), fun _ => ?_⟩
  rw [hgroup]
  rcases groupOnBuy_cases h hplan hranks hfollows with ⟨heq, hmin⟩ | ⟨heq, hne, hle⟩
  · rw [heq]
    refine ⟨hnew, fun g hg => ?_⟩
    rcases (hmem g).1 hg with hold | rfl
    · exact hmin g hold
    · exact le_rfl
  · obtain ⟨hin, hmin⟩ := hfollows.highest hne
    rw [heq]
    refine ⟨(hmem _).2 (.inl hin), fun g hg => ?_⟩
    rcases (hmem g).1 hg with hold | rfl
    · exact hmin g hold
    · exact hle

theorem Inv.bought {userId : ℕ} {cached : String} (hb : db.Bought env userId plan cached now done)
    (hwell : userId ≠ u ∨ trimSpace plan.upgradeGroup = "" ∨ endsAfterEpoch env plan now = true ∧
    ranksAmongActive env db u plan now = true)
    : done.Inv env u now := by
  obtain ⟨endUnix, source, prevGroup, hcalc, hsubs⟩ := hb.subs
  by_cases huser : userId = u
  · subst huser
    have hgroup : done.group userId = groupOnBuy env db userId plan := by
      rw [hb.group, Function.update_self]
    by_cases hblank : trimSpace plan.upgradeGroup = ""
    · refine h.insert_frame hsubs (fun he => he.2.2 hblank) ?_
      rw [hgroup, groupOnBuy, if_pos hblank]
    · obtain ⟨hend, hranks⟩ := (hwell.resolve_left (not_not.2 rfl)).resolve_left hblank
      have hpos : 0 < endUnix := by
        simpa [endsAfterEpoch, hcalc] using hend
      exact h.bought_group hsubs (find_freshId db) hgroup ⟨rfl, rfl, hblank⟩ rfl rfl hpos hranks
  · refine h.insert_frame hsubs (fun he => huser he.1) ?_
    rw [hb.group, Function.update_of_ne (Ne.symm huser)]

end

theorem Inv.init {u : ℕ} (hsubs : ∀ s ∈ db.subs.rows, s.userId ≠ u)
    (hgroup : db.group u = commonUserGroupDefault) : db.Inv env u now := by
  refine ⟨fun s hs he => absurd he.1 (hsubs s hs), fun s hs he => absurd he.1 (hsubs s hs),
    fun _ => ⟨fun _ => hgroup, fun hne => ?_⟩⟩
  obtain ⟨g, hg⟩ := List.exists_mem_of_ne_nil _ hne
  obtain ⟨s, hs, he, -⟩ := mem_activeUpgradeGroups.1 hg
  exact absurd he.1 (hsubs s hs)

theorem Inv.perform (h : db.Inv env u e.now)
    (hbuys : buysWell env u db e = true) (hreach : reaches u db e = true) :
    (db.perform env e).Inv env u e.now := by
  rcases e with ⟨op, now⟩
  cases op with
  | order => exact ⟨h.named, h.ends, fun hdue => (h.follows hdue).congr (fun _ => .rfl) rfl⟩
  | complete tradeNo plan =>
    dsimp only [GroupDb.perform]
    rcases completePlanOrder_cases env db tradeNo plan now with
      hsame | ⟨order, p, hfind, hpend, hteam, rfl, hb⟩ | hteam
    · rwa [hsame]
    · refine h.bought hb ?_
      simpa [buysWell, purchase, hfind, hpend, hteam] using hbuys
    · obtain ⟨sub, hne, hsubs⟩ := hteam.subs
      exact h.insert_frame hsubs (fun he => hne he.2.1) (by rw [hteam.group])
  | bind userId planId plan =>
    dsimp only [GroupDb.perform]
    rcases adminBind_cases env db userId planId plan now with hsame | ⟨p, rfl, hb⟩
    · rwa [hsame]
    · refine h.bought hb ?_
      simpa [buysWell, purchase] using hbuys
  | invalidate id =>
    dsimp only [GroupDb.perform]
    rcases adminInvalidate_cases env db now id with hno | ⟨sub, hfind, hid, hend⟩
    · rwa [hno.1]
    · exact h.ended (Table.mem_of_find hfind) hid (.of_cancel hend.subs) hend
  | delete id =>
    dsimp only [GroupDb.perform]
    rcases adminDelete_cases env db now id with hno | ⟨sub, hfind, hid, hend⟩
    · rwa [hno.1]
    · exact h.ended (Table.mem_of_find hfind) hid (.of_erase hend.subs) hend
  | expire => exact (h.expired (of_decide_eq_true hreach)).1

theorem groupCareful_iff : groupCareful env u db e = true ↔
    db.clock ≤ e.now ∧ buysWell env u db e = true ∧ reaches u db e = true := by
  simp [groupCareful]

theorem Inv.step (h : db.Inv env u db.clock)
    (hc : groupCareful env u db e = true) : (db.step env e).Inv env u (db.step env e).clock := by
  obtain ⟨hclock, hbuys, hreach⟩ := groupCareful_iff.1 hc
  have hperform := (h.mono hclock).perform hbuys hreach
  exact ⟨hperform.named, hperform.ends,
    fun hdue => (hperform.follows hdue).congr (fun _ => .rfl) rfl⟩

/-- From a user in the default group without subscriptions: the group follows the active
subscriptions right after each run of careful operations. -/
theorem group_follows_subscriptions (env : GroupEnv) (u : ℕ) (db : GroupDb)
    (hsubs : ∀ s ∈ db.subs.rows, s.userId ≠ u) (hgroup : db.group u = commonUserGroupDefault)
    (es : List GroupEvent)
    (hes : Along (step env) (fun db e => groupCareful env u db e = true) db es)
    (pre post : List GroupEvent) (limit now : ℤ)
    (hsplit : es = pre ++ ⟨.expire limit, now⟩ :: post) :
    (run (step env) db (pre ++ [⟨.expire limit, now⟩])).Follows env u now := by
  subst hsplit
  obtain ⟨hpre, hcareful, -⟩ := along_append.1 hes
  have hinv : (run (step env) db pre).Inv env u (run (step env) db pre).clock :=
    Along.run_inv (I := fun db => db.Inv env u db.clock) (fun _ _ h hc => h.step hc)
      (Inv.init hsubs hgroup) hpre
  obtain ⟨hclock, -, hreach⟩ := groupCareful_iff.1 hcareful
  have hfollows := ((hinv.mono hclock).expired (of_decide_eq_true hreach)).2
  rw [run_append]
  exact hfollows.congr (fun _ => .rfl) rfl

end GroupDb

def defaultUser : GroupDb :=
  ⟨⟨[], List.nodup_nil⟩, ⟨[], List.nodup_nil⟩, fun _ => "default", fun _ => none, 0⟩

def boundTo (groups : List String) : List GroupEvent :=
  groups.map fun g => ⟨.bind 1 1 (.ok (samplePlan 1 g)), 10⟩

theorem higher_group_followed : (run (GroupDb.step (sampleGroupEnv "Ultra,Pro")) defaultUser
      (boundTo ["Pro", "Ultra", "Basic"] ++ [⟨.expire 200, 30⟩])).Follows
        (sampleGroupEnv "Ultra,Pro") 1 30 :=
  GroupDb.group_follows_subscriptions (sampleGroupEnv "Ultra,Pro") 1 defaultUser
    (by simp [defaultUser]) rfl (boundTo ["Pro", "Ultra", "Basic"] ++ [⟨.expire 200, 30⟩])
    (by decide) (boundTo ["Pro", "Ultra", "Basic"]) [] 200 30 rfl

/-- A user who has a subscription to the default group, which the setting ranks, is moved to a group
that it does not rank. -/
theorem default_group_left_for_lower :
    (run (GroupDb.step (sampleGroupEnv "Ultra,Pro,default")) defaultUser
      (boundTo ["default", "Basic"] ++ [⟨.expire 200, 30⟩])).group 1 = "Basic" ∧
    (run (GroupDb.step (sampleGroupEnv "Ultra,Pro,default")) defaultUser
      (boundTo ["default", "Basic"] ++ [⟨.expire 200, 30⟩])).activeUpgradeGroups 1 30 0 =
      ["default", "Basic"] ∧
    (sampleGroupEnv "Ultra,Pro,default").groupRank "default" <
      (sampleGroupEnv "Ultra,Pro,default").groupRank "Basic" := by
  decide

end AggreApi
