import AggreApi.Proofs.AbilityMirror

/-!
# The rebuild of the channel cache

The inner maps are made for the groups of the abilities read and written for the groups of the
enabled channels read, so a rebuild panics exactly when a channel has a group no ability has
(`rebuild_eq`). Where it does not, it is the index of the memory cache (`initChannelCache_eq`).
-/

namespace AggreApi

open List ChannelStore

theorem foldlM_eq_ite {σ τ α : Type*} (R : σ → τ) {f : τ → α → Option τ} {g : σ → α → σ}
    {ok : α → Bool} (h : ∀ s a, f (R s) a = if ok a then some (R (g s a)) else none) :
    ∀ (l : List α) (s : σ),
      l.foldlM f (R s) = if l.all ok then some (R (l.foldl g s)) else none
  | [], s => by simp
  | a :: l, s => by
    rw [foldlM_cons, h, all_cons, foldl_cons]
    cases hok : ok a with
    | false => simp
    | true => simpa using foldlM_eq_ite R h l (g s a)

variable (channels : List Channel) (groups : List String) (idx : ChannelIndex)

namespace GroupMap

def ofIndex (known : String → Bool) (idx : ChannelIndex) : GroupMap :=
  fun g => if known g then some (idx g) else none

theorem ofGroups_eq : ofGroups groups = ofIndex (fun g => g ∈ groups) .empty := by
  funext g
  simp only [ofGroups, ofIndex, decide_eq_true_eq]
  rfl

variable {known : String → Bool}

theorem append_ofIndex (group model : String) (id : ℕ) :
    (ofIndex known idx).append group model id =
      if known group then some (ofIndex known (idx.add group model id)) else none := by
  cases hknown : known group with
  | false => simp [append, ofIndex, hknown]
  | true =>
    simp only [append, ofIndex, hknown, if_true, Option.some.injEq]
    funext g
    by_cases hg : g = group
    · rw [hg, Function.update_self, ofIndex, if_pos hknown]
      congr 1
      funext m
      by_cases hm : m = model <;> simp [ChannelIndex.add, hm]
    · have hadd : idx.add group model id g = idx g := by
        funext m
        simp [ChannelIndex.add, hg]
      rw [Function.update_of_ne hg]
      simp [ofIndex, hadd]

theorem addChannel_ofIndex (ch : Channel) : (ofIndex known idx).addChannel ch =
      if (splitChar ',' ch.group).all known then some (ofIndex known (idx.addChannel ch))
      else none := by
  refine foldlM_eq_ite (ofIndex known) (fun idx group => ?_) _ idx
  rw [foldlM_eq_ite (ofIndex known) fun idx model => append_ofIndex idx group model ch.id]
  obtain ⟨model, models, hmodels⟩ := exists_cons_of_ne_nil (splitChar_ne_nil ',' ch.models)
  have hall : ((splitChar ',' ch.models).all fun _ => known group) = known group := by
    cases hknown : known group <;> simp [hmodels]
  rw [hall]

end GroupMap

/-- Every group of an enabled channel is among the given ones. -/
def groupsRead : Bool :=
  (channels.filter (·.status = .enabled)).all fun ch => (splitChar ',' ch.group).all (· ∈ groups)

def readPriority (id : ℕ) : ℤ := ((channels.find? (·.id = id)).map Channel.getPriority).getD 0

theorem mem_buildIndex_iff {channels : List Channel} {g m : String} {id : ℕ} :
    id ∈ buildIndex channels g m ↔
      ∃ ch ∈ channels, ch.status = .enabled ∧ g ∈ splitChar ',' ch.group ∧
        m ∈ splitChar ',' ch.models ∧ ch.id = id := by
  rw [buildIndex, ChannelIndex.foldl_addChannel]
  simp only [ChannelIndex.empty, nil_append, mem_flatMap, mem_filter,
    decide_eq_true_eq, mem_replicate, ne_eq, mul_eq_zero, not_or, count_eq_zero,
    not_not, and_assoc, @eq_comm ℕ id]

theorem rebuild_eq : rebuild channels groups =
      if groupsRead channels groups then
        some fun g m => (buildIndex channels g m).insertionSort
          fun a b => readPriority channels a ≥ readPriority channels b
      else none := by
  rw [rebuild, GroupMap.ofGroups_eq,
    foldlM_eq_ite (GroupMap.ofIndex _) fun idx ch => GroupMap.addChannel_ofIndex idx ch,
    ← groupsRead]
  cases hread : groupsRead channels groups with
  | false => rfl
  | true =>
    simp only [if_true, Option.bind_eq_bind, Option.bind_some, Option.pure_def, Option.some.injEq]
    funext g m
    have hlist : ((GroupMap.ofIndex (fun g => g ∈ groups)
        (buildIndex channels) g).getD fun _ => []) m =
          buildIndex channels g m := by
      by_cases hg : g ∈ groups
      · simp [GroupMap.ofIndex, hg]
      · have hnone : buildIndex channels g m = [] := by
          refine eq_nil_iff_forall_not_mem.2 fun id hid => ?_
          obtain ⟨ch, hch, hst, hgroup, -⟩ := mem_buildIndex_iff.1 hid
          simp only [groupsRead, all_eq_true, mem_filter, decide_eq_true_eq] at hread
          exact hg (hread ch ⟨hch, hst⟩ g hgroup)
        simp [GroupMap.ofIndex, hg, hnone]
    exact congrArg (insertionSort _) hlist

theorem initChannelCache_eq (unmarshalRaw : String → Option (List String)) (s : ChannelStore) :
    s.initChannelCache unmarshalRaw =
      if s.memoryCacheEnabled then
        (rebuild s.channels.rows (s.abilities.map (·.group))).elim s fun idx => { s with
          group2model2channels := idx
          channelsIDM := s.channels.map (loadChannel unmarshalRaw s.channelsIDM)
            (loadChannel_id unmarshalRaw s.channelsIDM) }
      else s := by
  have hread : groupsRead s.channels.rows (s.abilities.map (·.group)) = s.groupsKnown := by
    rw [Bool.eq_iff_iff]
    simp [groupsRead, groupsKnown]
  rw [rebuild_eq, hread, initChannelCache]
  cases s.memoryCacheEnabled <;> cases s.groupsKnown <;> rfl

namespace ChannelDb

def channelsRead (s : ChannelDb) : List Channel := s.channels.rows.map (·.toChannel)

/-- The groups of the abilities as the rebuild reads them. -/
def abilityGroups (s : ChannelDb) : List String := s.abilities.rows.map (·.group)

/-- Every enabled channel is listed under each of its pairs. -/
def ListsEnabled : Prop :=
  ∀ ch ∈ channels, ch.status = .enabled → ∀ g ∈ splitChar ',' ch.group,
    ∀ m ∈ splitChar ',' ch.models, ch.id ∈ idx g m

theorem rebuild_lists :
    (∃ idx, rebuild channels groups = some idx ∧ ListsEnabled channels idx) ↔
      ∀ ch ∈ channels, ch.status = .enabled → ∀ g ∈ splitChar ',' ch.group, g ∈ groups := by
  have hread : groupsRead channels groups = true ↔
      ∀ ch ∈ channels, ch.status = .enabled → ∀ g ∈ splitChar ',' ch.group, g ∈ groups := by
    simp only [groupsRead, all_eq_true, mem_filter, decide_eq_true_eq, and_imp]
  rw [← hread, rebuild_eq]
  constructor
  · rintro ⟨idx, hidx, -⟩
    rw [Option.ite_none_right_eq_some] at hidx
    exact hidx.1
  · intro hgroups
    rw [if_pos hgroups]
    refine ⟨_, rfl, fun ch hch hst g hg m hm => ?_⟩
    rw [mem_insertionSort, mem_buildIndex_iff]
    exact ⟨ch, hch, hst, hg, hm, rfl⟩

/-- Whatever statements run before and between the two readings, a rebuild ends normally and lists
every enabled channel exactly when each group of an enabled channel read is that of an ability read.
-/
theorem rebuild_ends_iff (before between : List Statement) :
    (∃ idx, rebuild (run execute empty before).channelsRead
        (run execute empty (before ++ between)).abilityGroups = some idx ∧
      ListsEnabled (run execute empty before).channelsRead idx) ↔
    ∀ ch ∈ (run execute empty before).channelsRead, ch.status = .enabled →
      ∀ g ∈ splitChar ',' ch.group,
        g ∈ (run execute empty (before ++ between)).abilityGroups :=
  rebuild_lists _ _

/-- A rebuild panics between the two statements of an insert, after `FixAbility` has emptied the
table, and across a delete. -/
theorem rebuild_panics : rebuild (run execute empty [.create sampleRow]).channelsRead
      (run execute empty [.create sampleRow]).abilityGroups = none ∧
    rebuild
      (run execute empty [.create sampleRow, .addAbilities { sampleRow.withDefaults with id := 1 },
        .truncateAbilities]).channelsRead
      (run execute empty [.create sampleRow, .addAbilities { sampleRow.withDefaults with id := 1 },
        .truncateAbilities]).abilityGroups = none ∧
    rebuild
      (run execute empty
        [.create sampleRow, .addAbilities { sampleRow.withDefaults with id := 1 }]).channelsRead
      (run execute empty ([.create sampleRow,
        .addAbilities { sampleRow.withDefaults with id := 1 }] ++
          [.deleteRow 1, .deleteAbilities [1]])).abilityGroups = none := by
  simp only [rebuild_eq, ite_eq_right_iff, reduceCtorEq, imp_false]
  decide

theorem rebuild_of_mirrors {s : ChannelDb} (h : s.Mirrors) :
    ∃ idx, rebuild s.channelsRead s.abilityGroups = some idx ∧
      ListsEnabled s.channelsRead idx := by
  refine (rebuild_lists _ _).2 fun ch hch _ g hg => ?_
  obtain ⟨c, hc, rfl⟩ := mem_map.1 hch
  exact mem_map.2 (exists_ability_of_group h hc hg)

/-- After every run of operations in step a rebuild ends normally, and lists under a group and a
model the enabled channels that name both and no others. -/
theorem rebuild_in_step (unmarshalRaw : String → Option (List String)) (events : List Event)
    {s : ChannelDb} (hs : run (step unmarshalRaw) empty events = s)
    (h : Along (step unmarshalRaw) (InStep unmarshalRaw) empty events) :
    ∃ idx, rebuild s.channelsRead s.abilityGroups = some idx ∧ ∀ g m id, id ∈ idx g m ↔
      ∃ ch ∈ s.channelsRead, ch.status = .enabled ∧ g ∈ splitChar ',' ch.group ∧
        m ∈ splitChar ',' ch.models ∧ ch.id = id := by
  have hmirrors := (inv_run unmarshalRaw h).mirrors
  rw [hs] at hmirrors
  obtain ⟨idx, hidx, -⟩ := rebuild_of_mirrors hmirrors
  refine ⟨idx, hidx, fun g m id => ?_⟩
  rw [rebuild_eq, Option.ite_none_right_eq_some, Option.some.injEq] at hidx
  rw [← hidx.2, mem_insertionSort, mem_buildIndex_iff]

theorem rebuild_in_step_sample : ∃ idx, rebuild
      (run (step fun _ => none) empty [.insert sampleRow, .fixAbility]).channelsRead
      (run (step fun _ => none) empty [.insert sampleRow, .fixAbility]).abilityGroups = some idx :=
  (rebuild_in_step (fun _ => none) [.insert sampleRow, .fixAbility] rfl
    ⟨sampleRow_separated, trivial, trivial⟩).imp fun _ h => h.1

end ChannelDb

end AggreApi
