import AggreApi.Proofs.ChannelCache

/-!
# What a lookup picks

Whether a group serves a model does not depend on the retry number or the random one. Where it
does, a lookup picks a channel of the priority level the retry number names, and of the last level
once the number exceeds the levels.
-/

namespace AggreApi

open List

variable {l : List ℤ} {s : ChannelStore} {group model : String}

theorem mem_priorityLevels {p : ℤ} : p ∈ priorityLevels l ↔ p ∈ l := by
  rw [priorityLevels, (perm_insertionSort _ _).mem_iff, mem_dedup]

theorem priorityLevels_ne_nil (h : l ≠ []) : priorityLevels l ≠ [] := by
  obtain ⟨p, hp⟩ := exists_mem_of_ne_nil l h
  exact ne_nil_of_mem (mem_priorityLevels.2 hp)

theorem levelAt_mem (h : l ≠ []) (retry : ℕ) : levelAt l retry ∈ l := by
  have hpos := length_pos_iff.2 h
  have hlt : min retry (l.length - 1) < l.length := by omega
  rw [levelAt, getD_eq_getElem _ _ hlt]
  exact getElem_mem hlt

theorem levelAt_of_lt {k : ℕ} (h : k < l.length) : levelAt l k = l[k] := by
  rw [levelAt, Nat.min_eq_left (by omega), getD_eq_getElem _ _ h]

theorem levelAt_priorityLevels_mem {l : List ℤ} (h : l ≠ []) (retry : ℕ) :
    levelAt (priorityLevels l) retry ∈ l :=
  mem_priorityLevels.1 (levelAt_mem (priorityLevels_ne_nil h) retry)

theorem max?_eq_levelAt (h : l ≠ []) : l.max? = some (levelAt (priorityLevels l) 0) := by
  rw [max?_eq_some_iff]
  refine ⟨levelAt_priorityLevels_mem h 0, fun p hp => ?_⟩
  have hsorted : (priorityLevels l).Pairwise (· ≥ ·) := pairwise_insertionSort _ _
  have hmem := mem_priorityLevels.2 hp
  rcases hl : priorityLevels l with _ | ⟨q, rest⟩
  · rw [hl] at hmem
    cases hmem
  · rw [hl] at hsorted hmem
    have hq : levelAt (q :: rest) 0 = q := by simp [levelAt]
    rw [hq]
    rcases mem_cons.1 hmem with rfl | hrest
    · exact le_rfl
    · exact (pairwise_cons.1 hsorted).1 p hrest

section Walk
variable {α : Type} {weight : α → ℕ} {slack : ℕ} {a : α}

theorem walkWeights_isSome : ∀ {l : List α} {r : ℕ}, r < (l.map weight).sum →
    ∃ a, walkWeights weight slack r l = some a
  | [], _, h => by simp at h
  | a :: l, r, h => by
    rw [map_cons, sum_cons] at h
    unfold walkWeights
    split_ifs with hr
    · exact ⟨a, rfl⟩
    · exact walkWeights_isSome (by omega)

theorem walkWeights_pos : ∀ {l : List α} {r : ℕ}, walkWeights weight 0 r l = some a → 0 < weight a
  | [], _, h => by simp [walkWeights] at h
  | b :: l, r, h => by
    rw [walkWeights] at h
    split_ifs at h with hr
    · cases h
      omega
    · exact walkWeights_pos h

theorem walkWeights_after (b : α) (l : List α) (k : ℕ) :
    walkWeights weight 0 (weight b + k) (b :: l) = walkWeights weight 0 k l := by
  rw [walkWeights, if_neg (by omega), Nat.add_sub_cancel_left]

theorem walkWeights_reaches : ∀ {l : List α}, a ∈ l → 0 < weight a →
    ∃ r, r + weight a ≤ (l.map weight).sum ∧ walkWeights weight 0 r l = some a
  | b :: l, hmem, hpos => by
    rw [map_cons, sum_cons]
    rcases mem_cons.1 hmem with rfl | hmem
    · exact ⟨0, by omega, by rw [walkWeights, if_pos (by omega)]⟩
    · obtain ⟨r, hr, hwalk⟩ := walkWeights_reaches hmem hpos
      exact ⟨weight b + r, by omega, by rw [walkWeights_after, hwalk]⟩

/-- The slack moves the draws on by one. -/
theorem walkWeights_slack : ∀ (l : List α) (r : ℕ),
    walkWeights weight 1 (r + 1) l = walkWeights weight 0 r l
  | [], _ => rfl
  | b :: l, r => by
    rw [walkWeights, walkWeights]
    by_cases h : r < weight b
    · rw [if_pos (by omega), if_pos (by omega)]
    · rw [if_neg (by omega), if_neg (by omega), Nat.sub_add_comm (by omega), walkWeights_slack l]

end Walk

namespace ChannelStore

/-- The range of the draw in `GetRandomSatisfiedChannel`. -/
def totalWeight (targets : List Channel) : ℕ :=
  let sumWeight := (targets.map Channel.getWeight).sum
  if sumWeight = 0 then targets.length * 100
  else if sumWeight / targets.length < 10 then sumWeight * 100
  else sumWeight

/-- `w * smoothingFactor + smoothingAdjustment`. -/
def effectiveWeight (targets : List Channel) (ch : Channel) : ℕ :=
  let sumWeight := (targets.map Channel.getWeight).sum
  if sumWeight = 0 then ch.getWeight + 100
  else if sumWeight / targets.length < 10 then ch.getWeight * 100
  else ch.getWeight

variable {targets : List Channel}

theorem chooseChannel_eq (targets : List Channel) (draw : ℕ) : chooseChannel targets draw =
    walkWeights (effectiveWeight targets) 0 (draw % totalWeight targets) targets := by
  unfold chooseChannel effectiveWeight totalWeight
  dsimp only
  split_ifs <;> simp

theorem sum_effectiveWeight (targets : List Channel) :
    (targets.map (effectiveWeight targets)).sum = totalWeight targets := by
  unfold effectiveWeight totalWeight
  dsimp only
  split_ifs with hzero
  · simp [sum_map_add, hzero]
  · simp [sum_map_mul_right]
  · rfl

theorem chooseChannel_isSome (h : targets ≠ []) (draw : ℕ) :
    ∃ ch, chooseChannel targets draw = some ch := by
  have hlen := length_pos_iff.2 h
  have hpos : 0 < totalWeight targets := by
    unfold totalWeight
    dsimp only
    split_ifs <;> omega
  rw [chooseChannel_eq]
  exact walkWeights_isSome (by rw [sum_effectiveWeight]; exact Nat.mod_lt _ hpos)

/-- The channels a lookup chooses from, each with its priority. -/
def candidates (s : ChannelStore) (group model : String) : List (ℕ × ℤ) :=
  if s.memoryCacheEnabled then
    (s.indexed group model).map fun id => (id, priorityOf s.channelsIDM id)
  else (s.enabledAbilities group model).map fun a => (a.channelId, a.priority)

def serves (s : ChannelStore) (model group : String) : Bool :=
  if s.memoryCacheEnabled then
    s.indexed group model ≠ [] ∧ ∀ id ∈ s.indexed group model, (s.channelsIDM.find id).isSome
  else s.enabledAbilities group model ≠ []

def levels (s : ChannelStore) (group model : String) : List ℤ :=
  priorityLevels ((s.candidates group model).map Prod.snd)

theorem cachedChannels_of_found : ∀ {ids : List ℕ},
    (∀ id ∈ ids, (s.channelsIDM.find id).isSome) → ∃ chs, s.cachedChannels ids = .ok chs ∧
      chs.map Channel.id = ids ∧
      chs.map Channel.getPriority = ids.map (priorityOf s.channelsIDM)
  | [], _ => ⟨[], rfl, rfl, rfl⟩
  | id :: ids, h => by
    obtain ⟨ch, hch⟩ := Option.isSome_iff_exists.1 (h id mem_cons_self)
    obtain ⟨chs, hok, hids, hps⟩ :=
      cachedChannels_of_found fun i hi => h i (mem_cons_of_mem id hi)
    refine ⟨ch :: chs, by simp only [cachedChannels, hch, hok], ?_, ?_⟩
    · rw [map_cons, hids, Table.key_of_find hch]
    · rw [map_cons, map_cons, hps, priorityOf, hch]
      rfl

theorem cachedChannels_of_missing : ∀ {ids : List ℕ},
    (∃ id ∈ ids, s.channelsIDM.find id = none) → ∃ e, s.cachedChannels ids = .error e
  | [], h => by simp at h
  | id :: ids, h => by
    unfold cachedChannels
    rcases hid : s.channelsIDM.find id with _ | ch
    · exact ⟨_, rfl⟩
    · obtain ⟨i, hi, hnone⟩ := h
      have hrest : i ∈ ids := by
        rcases mem_cons.1 hi with rfl | hi
        · rw [hid] at hnone
          cases hnone
        · exact hi
      obtain ⟨e, he⟩ := cachedChannels_of_missing ⟨i, hrest, hnone⟩
      exact ⟨e, by simp only [he]⟩

theorem levels_cached (hon : s.memoryCacheEnabled = true)
    (group model : String) : s.levels group model =
      priorityLevels ((s.indexed group model).map (priorityOf s.channelsIDM)) := by
  simp [levels, candidates, hon, map_map, Function.comp_def]

def cachedLevel (s : ChannelStore) (ids : List ℕ) (retry : ℕ) : ℤ :=
  levelAt (priorityLevels (ids.map (priorityOf s.channelsIDM))) retry

theorem getCachedChannel_choose (hne : s.indexed group model ≠ [])
    (hfound : ∀ i ∈ s.indexed group model, (s.channelsIDM.find i).isSome) (retry : ℕ) :
    ∃ targets, (∀ c : Channel, c ∈ targets ↔ c.id ∈ s.indexed group model ∧
        s.channelsIDM.find c.id = some c ∧
        c.getPriority = s.cachedLevel (s.indexed group model) retry) ∧
      ∀ draw, ∃ ch, chooseChannel targets draw = some ch ∧
        s.getCachedChannel group model retry draw = (some ch, none) := by
  unfold getCachedChannel
  split
  · rename_i hnil
    exact absurd hnil hne
  · rename_i id hid
    rw [hid] at hfound ⊢
    obtain ⟨ch, hch⟩ := Option.isSome_iff_exists.1 (hfound id (mem_singleton_self id))
    have hkey := Table.key_of_find hch
    have hlevel : s.cachedLevel [id] retry = ch.getPriority := by
      simp [cachedLevel, priorityLevels, levelAt, priorityOf, hch]
    refine ⟨[ch], fun c => ?_, fun draw => ⟨ch, ?_, by rw [hch]⟩⟩
    · rw [hlevel, mem_singleton, mem_singleton]
      constructor
      · rintro rfl
        exact ⟨hkey, by rw [hkey, hch], rfl⟩
      · rintro ⟨hc, hfind, -⟩
        rw [hc, hch] at hfind
        exact (Option.some.inj hfind).symm
    · obtain ⟨c, hc⟩ := chooseChannel_isSome (cons_ne_nil ch []) draw
      rw [hc, mem_singleton.1 (chooseChannel_mem hc)]
  · obtain ⟨chs, hok, hids, hps⟩ := cachedChannels_of_found hfound
    have hmem : ∀ c : Channel, c ∈ chs ↔
        c.id ∈ s.indexed group model ∧ s.channelsIDM.find c.id = some c := by
      refine fun c => ⟨cachedChannels_mem hok c, ?_⟩
      rintro ⟨hcid, hfind⟩
      rw [← hids] at hcid
      obtain ⟨b, hb, hbid⟩ := mem_map.1 hcid
      have hbfind := (cachedChannels_mem hok b hb).2
      rw [hbid, hfind] at hbfind
      exact Option.some.inj hbfind ▸ hb
    have hlevel : ∃ c ∈ chs, c.getPriority = s.cachedLevel (s.indexed group model) retry := by
      have := levelAt_priorityLevels_mem (l := chs.map Channel.getPriority)
        (by rw [hps]; simpa using hne) retry
      rw [hps, ← cachedLevel, ← hps] at this
      exact mem_map.1 this
    rw [hok]
    dsimp only
    rw [hps, ← cachedLevel]
    generalize s.cachedLevel (s.indexed group model) retry = level at hlevel ⊢
    refine ⟨chs.filter (·.getPriority = level), fun c => ?_, fun draw => ?_⟩
    · rw [mem_filter, hmem, decide_eq_true_eq, and_assoc]
    · obtain ⟨c, hc, hcp⟩ := hlevel
      have hin : c ∈ chs.filter (·.getPriority = level) := by simp [hc, hcp]
      rcases htar : chs.filter (·.getPriority = level) with _ | ⟨d, rest⟩
      · rw [htar] at hin
        cases hin
      · obtain ⟨ch, hch⟩ := chooseChannel_isSome (cons_ne_nil d rest) draw
        exact ⟨ch, by rw [htar, hch], by simp only [htar, hch]⟩

theorem getCachedChannel_serves (hon : s.memoryCacheEnabled = true)
    (h : s.serves model group = true) (retry draw : ℕ) :
    ∃ ch, s.getCachedChannel group model retry draw = (some ch, none) ∧
      (ch.id, levelAt (s.levels group model) retry) ∈ s.candidates group model := by
  simp only [serves, hon, if_true, decide_eq_true_eq] at h
  obtain ⟨targets, htargets, hdraw⟩ := getCachedChannel_choose h.1 h.2 retry
  obtain ⟨ch, hchoose, hget⟩ := hdraw draw
  obtain ⟨hid, hfind, hlevel⟩ := (htargets ch).1 (chooseChannel_mem hchoose)
  refine ⟨ch, hget, ?_⟩
  rw [candidates, if_pos hon, levels_cached hon, ← cachedLevel, ← hlevel]
  exact mem_map.2 ⟨ch.id, hid, by simp [priorityOf, hfind]⟩

theorem getCachedChannel_not_serves (hon : s.memoryCacheEnabled = true)
    (h : s.serves model group = false) (retry draw : ℕ) :
    (s.getCachedChannel group model retry draw).1 = none := by
  simp only [serves, hon, if_true, decide_eq_false_iff_not, not_and] at h
  unfold getCachedChannel
  split
  · rfl
  · rename_i id hid
    rcases hf : s.channelsIDM.find id with _ | ch
    · rfl
    · rw [hid] at h
      refine absurd (fun i hi => ?_) (h (cons_ne_nil id []))
      rw [mem_singleton.1 hi, hf]
      rfl
  · rename_i ids hnil hsingle
    have hmissing : ∃ id ∈ s.indexed group model, s.channelsIDM.find id = none := by
      by_contra hall
      push Not at hall
      exact h hnil fun id hid => Option.ne_none_iff_isSome.1 (hall id hid)
    obtain ⟨e, he⟩ := cachedChannels_of_missing hmissing
    rw [he]

theorem levels_table (hoff : s.memoryCacheEnabled = false)
    (group model : String) : s.levels group model =
      priorityLevels ((s.enabledAbilities group model).map Ability.priority) := by
  simp [levels, candidates, hoff, map_map, Function.comp_def]

theorem getChannelQuery_eq (hoff : s.memoryCacheEnabled = false)
    (h : s.enabledAbilities group model ≠ []) (retry : ℕ) :
    s.getChannelQuery group model retry = .ok ((s.enabledAbilities group model).filter
      fun a => a.priority = levelAt (s.levels group model) retry) := by
  have hmax := max?_eq_levelAt (l := (s.enabledAbilities group model).map Ability.priority)
    (by simpa using h)
  rw [levels_table hoff]
  unfold getChannelQuery
  by_cases hr : retry = 0
  · simp [hr, hmax]
  · simp [hr, h]

/-- The walk that the lookup in the tables makes, through the abilities in some order. -/
theorem getChannel_walk {retry : ℕ} {rows : List Ability}
    (hrows : s.getChannelQuery group model retry = .ok rows) (hne : rows ≠ []) :
    ∃ sorted : List Ability, sorted.Perm rows ∧ ∀ draw, ∃ a,
      walkWeights (fun b => b.weight + 10) 1 (draw % (sorted.map fun b => b.weight + 10).sum)
        sorted = some a ∧
      s.getChannel group model retry draw = (s.channels.find a.channelId).elim
        (some { id := a.channelId }, some "record not found") fun ch => (some ch, none) := by
  have hperm := perm_insertionSort (fun a b : Ability => a.weight ≥ b.weight) rows
  refine ⟨_, hperm, fun draw => ?_⟩
  unfold getChannel
  rw [hrows]
  dsimp only
  rcases hsort : rows.insertionSort (fun a b => a.weight ≥ b.weight) with _ | ⟨b, rest⟩
  · exact absurd (hperm.symm.trans (.of_eq hsort)).eq_nil hne
  · obtain ⟨a, ha⟩ := @walkWeights_isSome _ (fun b : Ability => b.weight + 10) 1 (b :: rest) _
      (Nat.mod_lt draw (by simp))
    refine ⟨a, by rw [hsort, ha], ?_⟩
    simp only [hsort, ha]
    rcases s.channels.find a.channelId with _ | ch <;> rfl

section
variable (hoff : s.memoryCacheEnabled = false)
include hoff

theorem query_ne_nil (h : s.enabledAbilities group model ≠ []) (retry : ℕ) :
    (s.enabledAbilities group model).filter
      (fun a => a.priority = levelAt (s.levels group model) retry) ≠ [] := by
  have hmem := levelAt_priorityLevels_mem
    (l := (s.enabledAbilities group model).map Ability.priority) (by simpa using h) retry
  rw [← levels_table hoff] at hmem
  obtain ⟨a, ha, hap⟩ := mem_map.1 hmem
  exact ne_nil_of_mem (mem_filter.2 ⟨ha, by simpa using hap⟩)

theorem getChannel_picks (h : s.enabledAbilities group model ≠ []) (retry draw : ℕ) :
    ∃ a ∈ s.enabledAbilities group model, a.priority = levelAt (s.levels group model) retry ∧
      s.getChannel group model retry draw = (s.channels.find a.channelId).elim
        (some { id := a.channelId }, some "record not found") fun ch => (some ch, none) := by
  obtain ⟨sorted, hperm, hwalk⟩ :=
    getChannel_walk (getChannelQuery_eq hoff h retry) (query_ne_nil hoff h retry)
  obtain ⟨a, ha, hget⟩ := hwalk draw
  have hin := mem_filter.1 (hperm.subset (walkWeights_mem ha))
  exact ⟨a, hin.1, by simpa using hin.2, hget⟩

theorem getChannel_serves (h : s.serves model group = true) (retry draw : ℕ) :
    ∃ ch, (s.getChannel group model retry draw).1 = some ch ∧
      (ch.id, levelAt (s.levels group model) retry) ∈ s.candidates group model := by
  simp only [serves, hoff, Bool.false_eq_true, if_false, decide_eq_true_eq] at h
  obtain ⟨a, ha, hlevel, hget⟩ := getChannel_picks hoff h retry draw
  have hcand : (a.channelId, levelAt (s.levels group model) retry) ∈
      s.candidates group model := by
    rw [candidates, if_neg (by simp [hoff]), ← hlevel]
    exact mem_map_of_mem ha
  rw [hget]
  rcases hf : s.channels.find a.channelId with _ | ch
  · exact ⟨_, rfl, hcand⟩
  · exact ⟨ch, rfl, by rw [Table.key_of_find hf]; exact hcand⟩

theorem getChannel_not_serves (h : s.serves model group = false) (retry draw : ℕ) :
    (s.getChannel group model retry draw).1 = none := by
  simp only [serves, hoff, Bool.false_eq_true, if_false, decide_eq_false_iff_not, not_not,
    ne_eq] at h
  unfold getChannel getChannelQuery
  simp only [h]
  by_cases hr : retry = 0
  · simp [hr]
  · simp [hr]

end

theorem getRandomSatisfiedChannel_serves (h : s.serves model group = true) (retry draw : ℕ) :
    ∃ ch, (s.getRandomSatisfiedChannel group model retry draw).1 = some ch ∧
      (ch.id, levelAt (s.levels group model) retry) ∈ s.candidates group model := by
  unfold getRandomSatisfiedChannel
  rcases hon : s.memoryCacheEnabled with _ | _
  · exact getChannel_serves hon h retry draw
  · obtain ⟨ch, hch, hcand⟩ := getCachedChannel_serves hon h retry draw
    exact ⟨ch, by rw [Bool.not_true, if_neg (by simp), hch], hcand⟩

theorem getRandomSatisfiedChannel_not_serves (h : s.serves model group = false) (retry draw : ℕ) :
    (s.getRandomSatisfiedChannel group model retry draw).1 = none := by
  unfold getRandomSatisfiedChannel
  rcases hon : s.memoryCacheEnabled with _ | _
  · exact getChannel_not_serves hon h retry draw
  · exact getCachedChannel_not_serves hon h retry draw

theorem levels_ne_nil (h : s.serves model group = true) : s.levels group model ≠ [] := by
  refine priorityLevels_ne_nil ?_
  unfold serves at h
  unfold candidates
  split_ifs at h ⊢ <;> simp_all

end ChannelStore

end AggreApi
