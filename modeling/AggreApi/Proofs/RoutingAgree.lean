import AggreApi.Proofs.Rebuild
import AggreApi.Proofs.ChannelSelect

/-!
# The two ways to route a request

With the memory cache a channel without weight is chosen only where all at its level have none, and
a model nobody lists is looked up under the name it is matched by. Without it ten is added to every
weight, and the name is taken as it is.
-/

namespace AggreApi

open List ChannelStore

variable {s : ChannelDb} {group model : String}

theorem priorityLevels_congr {l l' : List ℤ} (h : ∀ p, p ∈ l ↔ p ∈ l') :
    priorityLevels l = priorityLevels l' := by
  have hperm : l.dedup.Perm l'.dedup :=
    (perm_ext_iff_of_nodup l.nodup_dedup l'.nodup_dedup).2 fun p => by
      rw [mem_dedup, mem_dedup, h]
  have hsort := fun l : List ℤ => perm_insertionSort (· ≥ ·) l
  exact List.Perm.eq_of_sortedGE sortedGE_insertionSort sortedGE_insertionSort
    (((hsort _).trans hperm).trans (hsort _).symm)

namespace ChannelStore

theorem effectiveWeight_pos_iff {targets : List Channel} {ch : Channel} :
    0 < effectiveWeight targets ch ↔ (∀ c ∈ targets, c.getWeight = 0) ∨ 0 < ch.getWeight := by
  have hzero : (targets.map Channel.getWeight).sum = 0 ↔ ∀ c ∈ targets, c.getWeight = 0 := by
    simp [sum_eq_zero_iff]
  rw [← hzero]
  unfold effectiveWeight
  dsimp only
  split_ifs <;> omega

theorem chooseChannel_reaches {targets : List Channel} {ch : Channel} :
    (∃ draw, chooseChannel targets draw = some ch) ↔
      ch ∈ targets ∧ ((∀ c ∈ targets, c.getWeight = 0) ∨ 0 < ch.getWeight) := by
  simp only [← effectiveWeight_pos_iff, chooseChannel_eq]
  constructor
  · rintro ⟨draw, hdraw⟩
    exact ⟨walkWeights_mem hdraw, walkWeights_pos hdraw⟩
  · rintro ⟨hmem, hpos⟩
    obtain ⟨r, hr, hwalk⟩ := walkWeights_reaches hmem hpos
    rw [sum_effectiveWeight] at hr
    exact ⟨r, by rw [Nat.mod_eq_of_lt (by omega), hwalk]⟩

theorem getChannel_reaches {s : ChannelStore} (hoff : s.memoryCacheEnabled = false)
    {group model : String} {retry : ℕ} {ch : Channel} :
    (∃ draw, s.getChannel group model retry draw = (some ch, none)) ↔
      ∃ a ∈ s.enabledAbilities group model, a.priority = levelAt (s.levels group model) retry ∧
        s.channels.find a.channelId = some ch := by
  by_cases hnone : s.enabledAbilities group model = []
  · have hserves : s.serves model group = false := by simp [serves, hoff, hnone]
    refine iff_of_false ?_ (by simp [hnone])
    rintro ⟨draw, hdraw⟩
    have hfst := getChannel_not_serves hoff hserves retry draw
    rw [hdraw] at hfst
    cases hfst
  constructor
  · rintro ⟨draw, hdraw⟩
    obtain ⟨a, ha, hlevel, hpick⟩ := getChannel_picks hoff hnone retry draw
    refine ⟨a, ha, hlevel, ?_⟩
    rw [hdraw] at hpick
    rcases hf : s.channels.find a.channelId with _ | d
    · simp [hf] at hpick
    · simpa [hf, eq_comm] using hpick
  · rintro ⟨a, ha, hlevel, hfind⟩
    obtain ⟨sorted, hperm, hwalk⟩ :=
      getChannel_walk (getChannelQuery_eq hoff hnone retry) (query_ne_nil hoff hnone retry)
    have hrow : a ∈ sorted := hperm.symm.subset (mem_filter.2 ⟨ha, by simpa using hlevel⟩)
    obtain ⟨r, hr, ha⟩ := @walkWeights_reaches _ (fun b : Ability => b.weight + 10) a _ hrow
      (Nat.succ_pos _)
    obtain ⟨b, hb, hget⟩ := hwalk (r + 1)
    rw [Nat.mod_eq_of_lt (by omega), walkWeights_slack, ha] at hb
    cases hb
    exact ⟨r + 1, by rw [hget, hfind]; rfl⟩

end ChannelStore

namespace ChannelDb

def servers (s : ChannelDb) (group model : String) : List ChannelRow :=
  s.channels.rows.filter fun c =>
    c.status = .enabled ∧ group ∈ splitChar ',' c.group ∧ model ∈ splitChar ',' c.models

/-- The level of priority among them a retry uses. -/
def serverLevel (s : ChannelDb) (group model : String) (retry : ℕ) : ℤ :=
  levelAt (priorityLevels ((s.servers group model).map (·.getPriority))) retry

theorem mem_servers {c : ChannelRow} :
    c ∈ s.servers group model ↔ c ∈ s.channels.rows ∧ c.status = .enabled ∧
      group ∈ splitChar ',' c.group ∧ model ∈ splitChar ',' c.models := by
  simp [servers]

theorem find_toStore {c : ChannelRow} (hc : c ∈ s.channels.rows) :
    s.toStore.channels.find c.id = some c.toChannel :=
  Table.find_of_mem (t := s.toStore.channels) (mem_map_of_mem hc)

theorem mem_enabledAbilities (h : s.Mirrors)
    {a : Ability} : a ∈ s.toStore.enabledAbilities group model ↔
      ∃ c ∈ s.servers group model, (c.ability (group, model)).toAbility = a := by
  simp only [enabledAbilities, toStore, mem_filter, mem_map,
    decide_eq_true_eq, mem_servers]
  constructor
  · rintro ⟨⟨r, hr, rfl⟩, hgroup, hmodel, henabled⟩
    obtain ⟨c, hc, p, hp, rfl⟩ := (h r).1 hr
    obtain ⟨hg, hm⟩ := ChannelRow.mem_pairs.1 hp
    simp only [ChannelRow.ability, decide_eq_true_eq] at hgroup hmodel henabled
    refine ⟨c, ⟨hc, henabled, hgroup ▸ hg, hmodel ▸ hm⟩, ?_⟩
    rw [← hgroup, ← hmodel]
  · rintro ⟨c, ⟨hc, henabled, hg, hm⟩, rfl⟩
    refine ⟨⟨_, (h _).2 ⟨c, hc, (group, model), ChannelRow.mem_pairs.2 ⟨hg, hm⟩,
      rfl⟩, rfl⟩, rfl, rfl, ?_⟩
    simp [ChannelRow.ability, henabled]

theorem getChannel_toStore {s : ChannelDb} (h : s.Mirrors) {group model : String} {retry id : ℕ} :
    (∃ draw ch, s.toStore.getChannel group model retry draw = (some ch, none) ∧ ch.id = id) ↔
      ∃ c ∈ s.servers group model, c.getPriority = s.serverLevel group model retry ∧
        c.id = id := by
  have hlevel : levelAt (s.toStore.levels group model) retry =
      s.serverLevel group model retry := by
    rw [levels_table rfl, serverLevel]
    refine congrArg (levelAt · retry) (priorityLevels_congr fun p => ?_)
    simp only [mem_map, mem_enabledAbilities h]
    constructor
    · rintro ⟨a, ⟨c, hc, rfl⟩, rfl⟩
      exact ⟨c, hc, rfl⟩
    · rintro ⟨c, hc, rfl⟩
      exact ⟨_, ⟨c, hc, rfl⟩, rfl⟩
  have hreach := fun ch => @ChannelStore.getChannel_reaches s.toStore rfl group model retry ch
  rw [hlevel] at hreach
  constructor
  · rintro ⟨draw, ch, hch, rfl⟩
    obtain ⟨a, ha, hlev, hfind⟩ := (hreach ch).1 ⟨draw, hch⟩
    obtain ⟨c, hc, rfl⟩ := (mem_enabledAbilities h).1 ha
    refine ⟨c, hc, hlev, ?_⟩
    exact (Table.key_of_find hfind).symm
  · rintro ⟨c, hc, hlev, rfl⟩
    obtain ⟨draw, hdraw⟩ := (hreach c.toChannel).2
      ⟨_, (mem_enabledAbilities h).2 ⟨c, hc, rfl⟩, hlev, find_toStore (mem_servers.1 hc).1⟩
    exact ⟨draw, _, hdraw, rfl⟩

/-- The name a model is looked up by in the cache. -/
def servedBy (s : ChannelDb) (group model : String) : String :=
  if s.servers group model = [] then formatMatchingModelName model else model

/-- The channel may be chosen where weights count: it has one, or none at its level has. -/
abbrev Chosen (s : ChannelDb) (group model : String) (retry : ℕ) (c : ChannelRow) : Prop :=
  c.getPriority = s.serverLevel group model retry ∧
    ((∀ b ∈ s.servers group model, b.getPriority = s.serverLevel group model retry →
      b.getWeight = 0) ∨ 0 < c.getWeight)

section Cached
variable (unmarshalRaw : String → Option (List String)) (index : ChannelIndex)
  (cached : Table Channel.id)

theorem loadChannel_same (ch : Channel) :
    (loadChannel unmarshalRaw cached ch).getPriority = ch.getPriority ∧
      (loadChannel unmarshalRaw cached ch).getWeight = ch.getWeight := by
  unfold loadChannel
  split
  · split
    · split_ifs <;> exact ⟨rfl, rfl⟩
    · exact ⟨rfl, rfl⟩
  · exact ⟨rfl, rfl⟩

variable (h : s.Mirrors)
include h

theorem toCachedStore_eq : s.toCachedStore unmarshalRaw index cached =
      { s.toStore with
        memoryCacheEnabled := true
        group2model2channels := fun g m =>
          (buildIndex s.toStore.channels.rows g m).insertionSort fun a b =>
            priorityOf s.toStore.channels a ≥
              priorityOf s.toStore.channels b
        channelsIDM := s.toStore.channels.map (loadChannel unmarshalRaw cached)
          (loadChannel_id unmarshalRaw cached) } := by
  have hknown : s.toStore.groupsKnown = true := by
    simp only [groupsKnown, toStore, all_eq_true, mem_filter, mem_map,
      any_eq_true, decide_eq_true_eq]
    rintro ch ⟨⟨c, hc, rfl⟩, -⟩ g hg
    obtain ⟨a, ha, hgroup⟩ := exists_ability_of_group h hc hg
    exact ⟨_, ⟨a, ha, rfl⟩, hgroup⟩
  have hcached : ({ s.toStore with
      memoryCacheEnabled := true
      group2model2channels := index
      channelsIDM := cached } : ChannelStore).groupsKnown = true := hknown
  simp [toCachedStore, initChannelCache, hcached]

theorem mem_cachedIndex (id : ℕ) :
    id ∈ (s.toCachedStore unmarshalRaw index cached).group2model2channels group model ↔
      ∃ c ∈ s.servers group model, c.id = id := by
  rw [toCachedStore_eq unmarshalRaw index cached h]
  refine (mem_insertionSort _).trans ?_
  simp only [mem_buildIndex_iff, toStore, mem_map, mem_servers]
  constructor
  · rintro ⟨-, ⟨c, hc, rfl⟩, hst, hg, hm, rfl⟩
    exact ⟨c, ⟨hc, hst, hg, hm⟩, rfl⟩
  · rintro ⟨c, ⟨hc, hst, hg, hm⟩, rfl⟩
    exact ⟨_, ⟨c, hc, rfl⟩, hst, hg, hm, rfl⟩

theorem find_cached {c : ChannelRow} (hc : c ∈ s.channels.rows) :
    (s.toCachedStore unmarshalRaw index cached).channelsIDM.find c.id =
      some (loadChannel unmarshalRaw cached c.toChannel) := by
  rw [toCachedStore_eq unmarshalRaw index cached h]
  refine (Table.find_map _ _ (loadChannel_id unmarshalRaw cached) _).trans ?_
  rw [find_toStore hc, Option.map_some]

theorem cachedIndex_eq_nil :
    (s.toCachedStore unmarshalRaw index cached).group2model2channels group model = [] ↔
      s.servers group model = [] := by
  simp only [eq_nil_iff_forall_not_mem, mem_cachedIndex unmarshalRaw index cached h]
  constructor
  · intro hnone c hc
    exact hnone c.id ⟨c, hc, rfl⟩
  · rintro hnone id ⟨c, hc, -⟩
    exact hnone c hc

theorem indexed_cached : (s.toCachedStore unmarshalRaw index cached).indexed group model =
    (s.toCachedStore unmarshalRaw index cached).group2model2channels group
      (s.servedBy group model) := by
  simp only [indexed, servedBy, cachedIndex_eq_nil unmarshalRaw index cached h]
  split_ifs <;> rfl

theorem getCachedChannel_cached {retry id : ℕ} :
    (∃ draw ch, (s.toCachedStore unmarshalRaw index cached).getCachedChannel group model retry
        draw = (some ch, none) ∧ ch.id = id) ↔
      ∃ c ∈ s.servers group (s.servedBy group model),
        s.Chosen group (s.servedBy group model) retry c ∧ c.id = id := by
  have hmem := @mem_cachedIndex s group (s.servedBy group model) unmarshalRaw index cached h
  rw [← indexed_cached unmarshalRaw index cached h] at hmem
  have hfind : ∀ c ∈ s.servers group (s.servedBy group model), _ := fun c hc =>
    find_cached unmarshalRaw index cached h (mem_servers.1 hc).1
  have hsame := loadChannel_same unmarshalRaw cached
  have hload := loadChannel_id unmarshalRaw cached
  generalize s.toCachedStore unmarshalRaw index cached = t at hmem hfind
  by_cases hne : t.indexed group model = []
  · have hnone : ∀ c, c ∉ s.servers group (s.servedBy group model) := fun c hc => by
      have := (hmem c.id).2 ⟨c, hc, rfl⟩
      rw [hne] at this
      cases this
    refine iff_of_false ?_ fun ⟨c, hc, _⟩ => hnone c hc
    rintro ⟨draw, ch, hch, -⟩
    rw [getCachedChannel, hne] at hch
    cases hch
  have hlevel : t.cachedLevel (t.indexed group model) retry =
      s.serverLevel group (s.servedBy group model) retry := by
    refine congrArg (levelAt · retry) (priorityLevels_congr fun p => ?_)
    have hprio : ∀ c ∈ s.servers group (s.servedBy group model),
        priorityOf t.channelsIDM c.id = c.getPriority := fun c hc => by
      rw [priorityOf, hfind c hc, Option.map_some, Option.getD_some, (hsame _).1]
    simp only [mem_map, hmem]
    constructor
    · rintro ⟨i, ⟨c, hc, rfl⟩, rfl⟩
      exact ⟨c, hc, (hprio c hc).symm⟩
    · rintro ⟨c, hc, rfl⟩
      exact ⟨c.id, ⟨c, hc, rfl⟩, hprio c hc⟩
  obtain ⟨targets, htargets, hdraw⟩ := getCachedChannel_choose hne
    (fun i hi => by
      obtain ⟨c, hc, rfl⟩ := (hmem i).1 hi
      rw [hfind c hc]
      rfl) retry
  have hrows : ∀ ch, ch ∈ targets ↔ ∃ c ∈ s.servers group (s.servedBy group model),
      c.getPriority = s.serverLevel group (s.servedBy group model) retry ∧
        loadChannel unmarshalRaw cached c.toChannel = ch := by
    intro ch
    rw [htargets, hlevel, hmem]
    constructor
    · rintro ⟨⟨c, hc, hid⟩, hch, hp⟩
      rw [← hid, hfind c hc] at hch
      cases hch
      exact ⟨c, hc, (hsame _).1.symm.trans hp, rfl⟩
    · rintro ⟨c, hc, hp, rfl⟩
      exact ⟨⟨c, hc, (hload _).symm⟩, by rw [hload]; exact hfind c hc, (hsame _).1.trans hp⟩
  have hreach : ∀ ch, (∃ draw, t.getCachedChannel group model retry draw = (some ch, none)) ↔
      ∃ draw, chooseChannel targets draw = some ch := by
    refine fun ch => exists_congr fun draw => ?_
    obtain ⟨c, hc, hget⟩ := hdraw draw
    simp [hc, hget]
  constructor
  · rintro ⟨draw, ch, hch, rfl⟩
    obtain ⟨hin, hweight⟩ := chooseChannel_reaches.1 ((hreach ch).1 ⟨draw, hch⟩)
    obtain ⟨c, hc, hp, rfl⟩ := (hrows ch).1 hin
    rw [(hsame _).2] at hweight
    refine ⟨c, hc, ⟨hp, hweight.imp_left fun hall b hb hlev => ?_⟩, (hload _).symm⟩
    exact (hsame b.toChannel).2.symm.trans (hall _ ((hrows _).2 ⟨b, hb, hlev, rfl⟩))
  · rintro ⟨c, hc, ⟨hp, hweight⟩, rfl⟩
    obtain ⟨draw, hdraw⟩ := (hreach _).2 (chooseChannel_reaches.2
      ⟨(hrows _).2 ⟨c, hc, hp, rfl⟩, by
        rw [(hsame _).2]
        refine hweight.imp_left fun hall ch hin => ?_
        obtain ⟨b, hb, hlev, rfl⟩ := (hrows ch).1 hin
        exact (hsame _).2.trans (hall b hb hlev)⟩)
    exact ⟨draw, _, hdraw, hload _⟩

theorem cached_memoryCacheEnabled :
    (s.toCachedStore unmarshalRaw index cached).memoryCacheEnabled = true := by
  rw [toCachedStore_eq unmarshalRaw index cached h]

theorem servable_cached (group model : String) (draw : ℕ) :
    (s.toCachedStore unmarshalRaw index cached).isModelServableInGroup group model draw =
      decide (s.servers group (s.servedBy group model) ≠ []) := by
  simp only [isModelServableInGroup, Bool.not_true, Bool.false_eq_true, if_false,
    cached_memoryCacheEnabled unmarshalRaw index cached h, gt_iff_lt, length_pos_iff, ne_eq,
    cachedIndex_eq_nil unmarshalRaw index cached h, servedBy]
  split_ifs with hnone
  · simp
  · simp [hnone]

theorem getRandomSatisfiedChannel_cached (group model : String) (retry draw : ℕ) :
    (s.toCachedStore unmarshalRaw index cached).getRandomSatisfiedChannel group model retry draw =
      (s.toCachedStore unmarshalRaw index cached).getCachedChannel group model retry draw := by
  simp [getRandomSatisfiedChannel,
    cached_memoryCacheEnabled unmarshalRaw index cached h]

end Cached

/-- The two lookups reach the same channels. -/
def RoutesAlike (s : ChannelDb) (group model : String) (retry : ℕ) : Prop :=
  if s.servers group model = [] then s.servers group (formatMatchingModelName model) = []
  else (∀ c ∈ s.servers group model, c.getPriority = s.serverLevel group model retry →
      c.getWeight = 0) ∨
    ∀ c ∈ s.servers group model, c.getPriority = s.serverLevel group model retry →
      0 < c.getWeight

theorem enabledAbilities_eq_nil (h : s.Mirrors) :
    s.toStore.enabledAbilities group model = [] ↔ s.servers group model = [] := by
  simp only [eq_nil_iff_forall_not_mem, mem_enabledAbilities h]
  constructor
  · intro hnone c hc
    exact hnone _ ⟨c, hc, rfl⟩
  · rintro hnone a ⟨c, hc, -⟩
    exact hnone c hc

theorem servable_toStore (h : s.Mirrors) (group model : String) (draw : ℕ) :
    s.toStore.isModelServableInGroup group model draw = decide (s.servers group model ≠ []) := by
  have hoff : s.toStore.memoryCacheEnabled = false := rfl
  simp only [isModelServableInGroup, hoff, Bool.not_false, if_true, decide_eq_decide]
  by_cases hnone : s.servers group model = []
  · have hserves : s.toStore.serves model group = false := by
      simp [serves, hoff, (enabledAbilities_eq_nil h).2 hnone]
    simp [getChannel_not_serves hoff hserves 0 draw, hnone]
  · obtain ⟨a, ha, -, hpick⟩ := getChannel_picks hoff
      (fun hnil => hnone ((enabledAbilities_eq_nil h).1 hnil)) 0 draw
    obtain ⟨c, hc, rfl⟩ := (mem_enabledAbilities h).1 ha
    have hfind : s.toStore.channels.find (c.ability (group, model)).channelId =
        some c.toChannel := find_toStore (mem_servers.1 hc).1
    rw [hpick, hfind]
    simp [hnone]

theorem exists_at_level (h : s.servers group model ≠ []) (retry : ℕ) :
    ∃ c ∈ s.servers group model, c.getPriority = s.serverLevel group model retry := by
  have hmem := @levelAt_priorityLevels_mem ((s.servers group model).map (·.getPriority))
    (by simpa using h) retry
  exact mem_map.1 hmem

theorem exists_chosen (h : s.servers group model ≠ []) (retry : ℕ) :
    ∃ c ∈ s.servers group model, s.Chosen group model retry c := by
  by_cases hzero : ∀ b ∈ s.servers group model,
      b.getPriority = s.serverLevel group model retry → b.getWeight = 0
  · obtain ⟨c, hc, hlevel⟩ := exists_at_level h retry
    exact ⟨c, hc, hlevel, .inl hzero⟩
  · push Not at hzero
    obtain ⟨c, hc, hlevel, hweight⟩ := hzero
    exact ⟨c, hc, hlevel, .inr (Nat.pos_of_ne_zero hweight)⟩

theorem reached_alike_iff (s : ChannelDb) (group model : String) (retry : ℕ) :
    (∀ id, (∃ c ∈ s.servers group (s.servedBy group model),
        s.Chosen group (s.servedBy group model) retry c ∧ c.id = id) ↔
      ∃ c ∈ s.servers group model, c.getPriority = s.serverLevel group model retry ∧
        c.id = id) ↔ s.RoutesAlike group model retry := by
  by_cases hnone : s.servers group model = []
  · rw [RoutesAlike, if_pos hnone, servedBy, if_pos hnone]
    simp only [hnone, not_mem_nil, false_and, exists_false, iff_false]
    constructor
    · intro hno
      by_contra hne
      obtain ⟨c, hc, hchosen⟩ := exists_chosen hne retry
      exact hno c.id ⟨c, hc, hchosen, rfl⟩
    · rintro hnil id ⟨c, hc, -⟩
      rw [hnil] at hc
      exact absurd hc not_mem_nil
  · rw [RoutesAlike, if_neg hnone, servedBy, if_neg hnone]
    constructor
    · intro halike
      rw [or_iff_not_imp_left]
      intro hzero c hc hlevel
      obtain ⟨d, hd, ⟨-, hchosen⟩, hid⟩ := (halike c.id).2 ⟨c, hc, hlevel, rfl⟩
      have hdc : d = c := Table.eq_of_key (mem_servers.1 hd).1 (mem_servers.1 hc).1 hid
      rw [hdc] at hchosen
      exact hchosen.resolve_left hzero
    · intro hweights id
      constructor
      · rintro ⟨c, hc, ⟨hlevel, -⟩, rfl⟩
        exact ⟨c, hc, hlevel, rfl⟩
      · rintro ⟨c, hc, hlevel, rfl⟩
        exact ⟨c, hc, ⟨hlevel, hweights.imp_right fun hpos => hpos c hc hlevel⟩, rfl⟩

/-- Over mirrored tables and the cache built from them, both lookups can return the same channels
exactly under `RoutesAlike`, and agree on whether there is one, and on what is servable, unless only
the matched name is listed. -/
theorem routing_agrees_iff (unmarshalRaw : String → Option (List String)) {s : ChannelDb}
    (h : s.Mirrors) (index : ChannelIndex) (cached : Table Channel.id) (group model : String)
    (retry draw : ℕ) :
    ((∀ id, (∃ r ch, (s.toCachedStore unmarshalRaw index cached).getRandomSatisfiedChannel group
          model retry r = (some ch, none) ∧ ch.id = id) ↔
        ∃ r ch, s.toStore.getChannel group model retry r = (some ch, none) ∧ ch.id = id) ↔
      s.RoutesAlike group model retry) ∧
    (((∃ r ch, (s.toCachedStore unmarshalRaw index cached).getRandomSatisfiedChannel group model
          retry r = (some ch, none)) ↔
        ∃ r ch, s.toStore.getChannel group model retry r = (some ch, none)) ↔
      (s.servers group model = [] → s.servers group (formatMatchingModelName model) = [])) ∧
    ((s.toCachedStore unmarshalRaw index cached).isModelServableInGroup group model draw =
        s.toStore.isModelServableInGroup group model draw ↔
      (s.servers group model = [] → s.servers group (formatMatchingModelName model) = [])) := by
  simp only [getRandomSatisfiedChannel_cached unmarshalRaw index cached h]
  have hname : (s.servers group (s.servedBy group model) ≠ [] ↔ s.servers group model ≠ []) ↔
      (s.servers group model = [] → s.servers group (formatMatchingModelName model) = []) := by
    by_cases hnone : s.servers group model = [] <;> simp [servedBy, hnone]
  have hin := fun id => @getCachedChannel_cached s group model unmarshalRaw index cached h retry id
  have hdb := fun id => @getChannel_toStore s h group model retry id
  refine ⟨?_, ?_, ?_⟩
  · rw [← reached_alike_iff]
    exact forall_congr' fun id => by rw [hin, hdb]
  · rw [← hname]
    refine iff_congr ⟨?_, fun hne => ?_⟩ ⟨?_, fun hne => ?_⟩
    · rintro ⟨r, ch, hch⟩
      obtain ⟨c, hc, -⟩ := (hin ch.id).1 ⟨r, ch, hch, rfl⟩
      exact ne_nil_of_mem hc
    · obtain ⟨c, hc, hchosen⟩ := exists_chosen hne retry
      obtain ⟨r, ch, hch, -⟩ := (hin c.id).2 ⟨c, hc, hchosen, rfl⟩
      exact ⟨r, ch, hch⟩
    · rintro ⟨r, ch, hch⟩
      obtain ⟨c, hc, -⟩ := (hdb ch.id).1 ⟨r, ch, hch, rfl⟩
      exact ne_nil_of_mem hc
    · obtain ⟨c, hc, hlevel⟩ := exists_at_level hne retry
      obtain ⟨r, ch, hch, -⟩ := (hdb c.id).2 ⟨c, hc, hlevel, rfl⟩
      exact ⟨r, ch, hch⟩
  · rw [servable_cached unmarshalRaw index cached h, servable_toStore h, decide_eq_decide, hname]

def sampleWeights : ChannelDb :=
  run (step fun _ => none) empty
    [.insert { id := 0, key := "k", models := "o3,gpt-4-gizmo-*", weight := some 5 },
      .insert { id := 0, key := "k", models := "o3" }]

theorem sampleWeights_mirrors : sampleWeights.Mirrors := by
  decide

theorem routing_agrees_iff_sample : sampleWeights.Mirrors ∧
    (((∃ r ch, (sampleWeights.toCachedStore (fun _ => none) .empty
          ⟨[], nodup_nil⟩).getRandomSatisfiedChannel "default" "o3" 0 r = (some ch, none)) ↔
        ∃ r ch, sampleWeights.toStore.getChannel "default" "o3" 0 r = (some ch, none)) ↔
      (sampleWeights.servers "default" "o3" = [] →
        sampleWeights.servers "default" (formatMatchingModelName "o3") = [])) :=
  ⟨sampleWeights_mirrors, (routing_agrees_iff (fun _ => none) sampleWeights_mirrors .empty
    ⟨[], nodup_nil⟩ "default" "o3" 0 0).2.1⟩

/-- The channel without a weight is returned from the tables only, and a name matched by a wildcard
from the cache only. -/
theorem routing_differs :
    (∃ r ch, sampleWeights.toStore.getChannel "default" "o3" 0 r = (some ch, none) ∧ ch.id = 2) ∧
    (¬ ∃ r ch, (sampleWeights.toCachedStore (fun _ => none) .empty
      ⟨[], nodup_nil⟩).getRandomSatisfiedChannel "default" "o3" 0 r = (some ch, none) ∧
        ch.id = 2) ∧
    (sampleWeights.toCachedStore (fun _ => none) .empty
      ⟨[], nodup_nil⟩).isModelServableInGroup "default" "gpt-4-gizmo-x" 0 = true ∧
    sampleWeights.toStore.isModelServableInGroup "default" "gpt-4-gizmo-x" 0 = false := by
  simp only [getRandomSatisfiedChannel_cached (fun _ => none) _ _ sampleWeights_mirrors,
    getChannel_toStore sampleWeights_mirrors,
    getCachedChannel_cached (fun _ => none) _ _ sampleWeights_mirrors,
    servable_cached (fun _ => none) _ _ sampleWeights_mirrors,
    servable_toStore sampleWeights_mirrors]
  decide

end ChannelDb

end AggreApi
