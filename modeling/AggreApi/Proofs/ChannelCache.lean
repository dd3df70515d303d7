import AggreApi.ChannelCache

/-!
# The memory cache offers enabled channels

`UpdateChannelStatus` keeps every listed channel enabled as long as a channel it disables is listed
at most once under a pair, and as long as a multi-key channel it updates is left with an enabled
key.
-/

namespace AggreApi

open List Option

variable {ch : Channel} {s : ChannelStore} {status : ChannelStatus}

namespace ChannelIndex

theorem foldl_add (group : String) (id : ℕ) (g m : String) :
    ∀ (models : List String) (idx : ChannelIndex),
      (models.foldl (fun idx m => idx.add group m id) idx) g m =
        idx g m ++ List.replicate (if g = group then models.count m else 0) id
  | [], idx => by simp
  | model :: models, idx => by
    rw [foldl_cons, foldl_add group id g m models, add]
    by_cases hg : g = group
    · by_cases hm : m = model
      · simp [hg, hm, replicate_succ]
      · simp [hg, hm, count_cons_of_ne (Ne.symm hm)]
    · simp [hg]

theorem addChannel_apply (idx : ChannelIndex) (ch : Channel) (g m : String) :
    idx.addChannel ch g m = idx g m ++ List.replicate
      ((splitChar ',' ch.group).count g * (splitChar ',' ch.models).count m) ch.id := by
  unfold addChannel
  generalize splitChar ',' ch.group = groups
  induction groups generalizing idx with
  | nil => simp
  | cons group _ ih =>
    rw [foldl_cons, ih, foldl_add, append_assoc, replicate_append_replicate]
    by_cases hg : g = group
    · subst hg
      simp [Nat.add_mul, Nat.add_comm]
    · simp [hg, count_cons_of_ne (Ne.symm hg)]

theorem foldl_addChannel (g m : String) : ∀ (chs : List Channel) (idx : ChannelIndex),
    chs.foldl addChannel idx g m = idx g m ++ chs.flatMap fun ch => List.replicate
      ((splitChar ',' ch.group).count g * (splitChar ',' ch.models).count m) ch.id
  | [], idx => by simp
  | ch :: chs, idx => by
    rw [foldl_cons, foldl_addChannel g m chs, addChannel_apply, append_assoc,
      flatMap_cons]

end ChannelIndex

def Channel.namesOnce (ch : Channel) : Bool :=
  (splitChar ',' ch.group).Nodup ∧ (splitChar ',' ch.models).Nodup

namespace ChannelStore

variable {unmarshalRaw : String → Option (List String)}

theorem mem_buildIndex {chs : List Channel} {g m : String} {id : ℕ}
    (h : id ∈ buildIndex chs g m) : ∃ ch ∈ chs, ch.id = id ∧ ch.status = .enabled := by
  rw [buildIndex, ChannelIndex.foldl_addChannel] at h
  simp only [ChannelIndex.empty, nil_append, mem_flatMap, mem_filter,
    decide_eq_true_eq, mem_replicate] at h
  obtain ⟨ch, ⟨hmem, hst⟩, -, rfl⟩ := h
  exact ⟨ch, hmem, rfl, hst⟩

theorem sum_le_of_nodup {n : Channel → ℕ} {id k : ℕ} : ∀ {chs : List Channel},
    (chs.map Channel.id).Nodup → (∀ ch ∈ chs, ch.id = id → n ch ≤ k) →
      (chs.map fun ch => if ch.id = id then n ch else 0).sum ≤ k
  | [], _, _ => Nat.zero_le k
  | ch :: chs, hnd, hn => by
    rw [map_cons, nodup_cons] at hnd
    rw [map_cons, sum_cons]
    by_cases hid : ch.id = id
    · have hrest : (chs.map fun c => if c.id = id then n c else 0).sum = 0 := by
        refine sum_eq_zero fun x hx => ?_
        obtain ⟨c, hc, rfl⟩ := mem_map.1 hx
        have hne : c.id ≠ id := by
          rintro rfl
          exact hnd.1 (hid ▸ mem_map_of_mem hc)
        simp [hne]
      rw [hrest, if_pos hid]
      exact hn ch mem_cons_self hid
    · rw [if_neg hid, Nat.zero_add]
      exact sum_le_of_nodup hnd.2 fun c hc => hn c (mem_cons_of_mem ch hc)

theorem count_buildIndex_le {chs : List Channel} (hnd : (chs.map Channel.id).Nodup)
    (hmem : ch ∈ chs) (hone : ch.namesOnce) (g m : String) :
    (buildIndex chs g m).count ch.id ≤ 1 := by
  rw [buildIndex, ChannelIndex.foldl_addChannel, ChannelIndex.empty, nil_append,
    count_flatMap]
  simp only [Function.comp_def, count_replicate, beq_iff_eq]
  refine sum_le_of_nodup (hnd.sublist (filter_sublist.map _)) fun c hc hid => ?_
  have hcc : c = ch := inj_on_of_nodup_map hnd (mem_of_mem_filter hc) hmem hid
  subst hcc
  simp only [Channel.namesOnce, decide_eq_true_eq] at hone
  exact Nat.mul_le_mul (nodup_iff_count_le_one.1 hone.1 g)
    (nodup_iff_count_le_one.1 hone.2 m)

/-- The update of one key leaves a multi-key channel without an enabled key, by its own count, or
disables one that has no keys. -/
def exhausts (unmarshalRaw : String → Option (List String)) (ch : Channel) (usingKey : String)
    (status : ChannelStatus) : Bool :=
  let keys := ch.getKeys unmarshalRaw
  let others := (ch.channelInfo.multiKeyStatusList.erase (keyIndex keys usingKey)).entries.length
  if keys = [] then status ≠ .enabled
  else ch.channelInfo.multiKeySize ≤ if status = .enabled then others else others + 1

def keepsKey (unmarshalRaw : String → Option (List String)) (usingKey : String)
    (status : ChannelStatus) (ch : Channel) : Bool :=
  ch.status ≠ .enabled || !exhausts unmarshalRaw ch usingKey status

variable (info : ChannelInfo) (i : ℕ)

theorem updateKeyStatus_size (status : ChannelStatus) (reason : String) (now : ℤ) :
    (updateKeyStatus info i status reason now).multiKeySize = info.multiKeySize := by
  unfold updateKeyStatus
  split_ifs <;> rfl

theorem updateKeyStatus_isMultiKey (status : ChannelStatus) (reason : String) (now : ℤ) :
    (updateKeyStatus info i status reason now).isMultiKey = info.isMultiKey := by
  unfold updateKeyStatus
  split_ifs <;> rfl

theorem updateKeyStatus_length (status : ChannelStatus) (reason : String) (now : ℤ) :
    (updateKeyStatus info i status reason now).multiKeyStatusList.entries.length =
      if status = .enabled then (info.multiKeyStatusList.erase i).entries.length
      else (info.multiKeyStatusList.erase i).entries.length + 1 := by
  unfold updateKeyStatus
  split_ifs <;> rfl

section Handler

variable (ch : Channel) (usingKey : String) (status : ChannelStatus) (reason : String) (now : ℤ)

theorem handlerMultiKeyUpdate_same :
    (handlerMultiKeyUpdate unmarshalRaw ch usingKey status reason now).channelInfo.isMultiKey =
        ch.channelInfo.isMultiKey ∧
      (handlerMultiKeyUpdate unmarshalRaw ch usingKey status reason now).namesOnce =
        ch.namesOnce := by
  simp only [handlerMultiKeyUpdate]
  split
  · exact ⟨rfl, rfl⟩
  · split <;> exact ⟨updateKeyStatus_isMultiKey _ _ _ _ _, rfl⟩

theorem handlerMultiKeyUpdate_enabled (hst : ch.status = .enabled)
    (hkeep : keepsKey unmarshalRaw usingKey status ch = true) :
    (handlerMultiKeyUpdate unmarshalRaw ch usingKey status reason now).status = .enabled := by
  simp only [keepsKey, hst, ne_eq, not_true_eq_false, decide_false, Bool.false_or,
    Bool.not_eq_true', exhausts] at hkeep
  simp only [handlerMultiKeyUpdate, updateKeyStatus_size, updateKeyStatus_length]
  split
  · rename_i hkeys
    simpa [hkeys] using hkeep
  · rename_i hkeys
    rw [if_neg hkeys, decide_eq_false_iff_not] at hkeep
    rw [if_neg hkeep]
    exact hst

end Handler

/-- The update goes as planned. -/
def steady (unmarshalRaw : String → Option (List String)) (s : ChannelStore) : Event → Bool
  | .initChannelCache => true
  | .updateChannelStatus id usingKey status _ _ =>
    (s.channelsIDM.find id).all fun ch =>
      if ch.channelInfo.isMultiKey then
        keepsKey unmarshalRaw usingKey status ch &&
          (s.channels.find id).all (keepsKey unmarshalRaw usingKey status)
      else status = .enabled || ch.namesOnce

structure Inv (s : ChannelStore) : Prop where
  cacheOn : s.memoryCacheEnabled = true
  listed : ∀ g m id, id ∈ s.group2model2channels g m →
    (∃ ch, s.channelsIDM.find id = some ch ∧ ch.status = .enabled) ∧
      ∃ row, s.channels.find id = some row ∧ row.status = .enabled
  once : ∀ id ch, s.channelsIDM.find id = some ch → ch.namesOnce →
    ∀ g m, (s.group2model2channels g m).count id ≤ 1
  sameKind : ∀ id ch row, s.channelsIDM.find id = some ch → s.channels.find id = some row →
    row.channelInfo.isMultiKey = ch.channelInfo.isMultiKey

theorem inv_start (channels : Table Channel.id) (abilities : List Ability) :
    Inv (start channels abilities) where
  cacheOn := rfl
  listed g m id h := absurd h not_mem_nil
  once id ch h := absurd h (by simp [start, Table.find])
  sameKind id ch row h := absurd h (by simp [start, Table.find])

theorem loadChannel_same (old : Table Channel.id) (ch : Channel) :
    (loadChannel unmarshalRaw old ch).status = ch.status ∧
      (loadChannel unmarshalRaw old ch).namesOnce = ch.namesOnce ∧
      (loadChannel unmarshalRaw old ch).channelInfo.isMultiKey = ch.channelInfo.isMultiKey := by
  unfold loadChannel
  split
  · split
    · split_ifs <;> exact ⟨rfl, rfl, rfl⟩
    · exact ⟨rfl, rfl, rfl⟩
  · exact ⟨rfl, rfl, rfl⟩

theorem inv_initChannelCache (h : Inv s) : Inv (s.initChannelCache unmarshalRaw) := by
  unfold initChannelCache
  split_ifs
  · exact h
  · exact h
  have hload : ∀ {id : ℕ} {ch : Channel},
      (s.channels.map (loadChannel unmarshalRaw s.channelsIDM)
        (loadChannel_id unmarshalRaw s.channelsIDM)).find id = some ch →
      ∃ row, s.channels.find id = some row ∧ loadChannel unmarshalRaw s.channelsIDM row = ch := by
    intro id ch hch
    rwa [Table.find_map, map_eq_some_iff] at hch
  refine ⟨h.cacheOn, fun g m id hid => ?_, fun id ch hch hone g m => ?_, ?_⟩
  · rw [(perm_insertionSort _ _).mem_iff] at hid
    obtain ⟨row, hrow, rfl, hst⟩ := mem_buildIndex hid
    have hfind := Table.find_of_mem hrow
    refine ⟨⟨loadChannel unmarshalRaw s.channelsIDM row, ?_, ?_⟩, row, hfind, hst⟩
    · rw [Table.find_map, hfind, map_some]
    · rw [(loadChannel_same _ row).1, hst]
  · obtain ⟨row, hrow, rfl⟩ := hload hch
    rw [(loadChannel_same _ row).2.1] at hone
    rw [(perm_insertionSort _ _).count_eq, ← Table.key_of_find hrow]
    exact count_buildIndex_le s.channels.nodup (Table.mem_of_find hrow) hone g m
  · intro id ch row hch hrow
    obtain ⟨row', hrow', rfl⟩ := hload hch
    rw [(loadChannel_same _ row').2.2]
    have hrr : row' = row := some.inj (hrow'.symm.trans hrow)
    rw [hrr]

theorem Inv.putCached (h : Inv s) {id : ℕ} {upd : Channel}
    (hch : s.channelsIDM.find id = some ch) (hid : upd.id = id)
    (hnames : upd.namesOnce = ch.namesOnce)
    (hkind : upd.channelInfo.isMultiKey = ch.channelInfo.isMultiKey)
    (hst : ch.status = .enabled → upd.status = .enabled) :
    Inv { s with channelsIDM := s.channelsIDM.put upd } := by
  subst hid
  have hself := Table.find_put_self hch
  refine ⟨h.cacheOn, fun g m id' hmem => ?_, fun id' c hc hone g m => ?_,
    fun id' c row hc hrow => ?_⟩
  · obtain ⟨⟨c, hc, hen⟩, hrow⟩ := h.listed g m id' hmem
    refine ⟨?_, hrow⟩
    by_cases hne : id' = upd.id
    · subst hne
      rw [hch] at hc
      cases hc
      exact ⟨upd, hself, hst hen⟩
    · exact ⟨c, by rw [Table.find_put_of_ne _ hne, hc], hen⟩
  · by_cases hne : id' = upd.id
    · subst hne
      rw [hself] at hc
      cases hc
      exact h.once _ ch hch (hnames ▸ hone) g m
    · rw [Table.find_put_of_ne _ hne] at hc
      exact h.once id' c hc hone g m
  · by_cases hne : id' = upd.id
    · subst hne
      rw [hself] at hc
      cases hc
      rw [hkind]
      exact h.sameKind _ ch row hch hrow
    · rw [Table.find_put_of_ne _ hne] at hc
      exact h.sameKind id' c row hc hrow

theorem Inv.putRow (h : Inv s) {id : ℕ} {row upd : Channel}
    (hrow : s.channels.find id = some row) (hid : upd.id = id)
    (hkind : upd.channelInfo.isMultiKey = row.channelInfo.isMultiKey)
    (hst : ∀ g m, id ∈ s.group2model2channels g m → upd.status = .enabled)
    (abilities : List Ability) :
    Inv { s with channels := s.channels.put upd, abilities } := by
  subst hid
  have hself := Table.find_put_self hrow
  refine ⟨h.cacheOn, fun g m id' hmem => ?_, h.once, fun id' c r hc hr => ?_⟩
  · obtain ⟨hcached, r, hr, hen⟩ := h.listed g m id' hmem
    refine ⟨hcached, ?_⟩
    by_cases hne : id' = upd.id
    · subst hne
      exact ⟨upd, hself, hst g m hmem⟩
    · exact ⟨r, by rw [Table.find_put_of_ne _ hne, hr], hen⟩
  · by_cases hne : id' = upd.id
    · subst hne
      rw [hself] at hr
      cases hr
      rw [hkind]
      exact h.sameKind _ c row hc hrow
    · rw [Table.find_put_of_ne _ hne] at hr
      exact h.sameKind id' c r hc hr

theorem Inv.cacheUpdate (h : Inv s) {id : ℕ} (hch : s.channelsIDM.find id = some ch)
    (hone : status = .enabled ∨ ch.namesOnce = true) :
    Inv (s.cacheUpdateChannelStatus id status) ∧ (status ≠ .enabled →
      ∀ g m, id ∉ (s.cacheUpdateChannelStatus id status).group2model2channels g m) := by
  have hoff : ∀ g m, status ≠ .enabled → id ∉ (s.group2model2channels g m).erase id := by
    intro g m hne hmem
    have hcount := h.once id ch hch (hone.resolve_left hne) g m
    have hpos := count_pos_iff.2 hmem
    rw [count_erase_self] at hpos
    omega
  unfold cacheUpdateChannelStatus
  rw [if_neg (by simp [h.cacheOn])]
  refine ⟨⟨h.cacheOn, fun g m id' hmem => ?_, fun id' c hc hnames g m => ?_,
    fun id' c row hc hrow => ?_⟩, fun hne g m => ?_⟩
  · have hold : id' ∈ s.group2model2channels g m ∧ (status ≠ .enabled → id' ≠ id) := by
      by_cases hst : status = .enabled
      · simp only [hst, if_pos] at hmem
        exact ⟨hmem, fun hne => absurd hst hne⟩
      · simp only [hst, if_false, ChannelIndex.remove] at hmem
        refine ⟨mem_of_mem_erase hmem, fun _ hid => ?_⟩
        subst hid
        exact hoff g m hst hmem
    obtain ⟨⟨c, hc, hen⟩, hrow⟩ := h.listed g m id' hold.1
    refine ⟨⟨_, by rw [Table.find_map, hc, map_some], ?_⟩, hrow⟩
    split_ifs with hid
    · by_contra hne
      exact hold.2 hne ((Table.key_of_find hc).symm.trans hid)
    · exact hen
  · rw [Table.find_map, map_eq_some_iff] at hc
    obtain ⟨c', hc', rfl⟩ := hc
    have hold := h.once id' c' hc' (by split_ifs at hnames <;> exact hnames) g m
    show List.count id' ((if status = .enabled then _ else _ : ChannelIndex) g m) ≤ 1
    split_ifs
    · exact hold
    · exact (erase_sublist.count_le id').trans hold
  · rw [Table.find_map, map_eq_some_iff] at hc
    obtain ⟨c', hc', rfl⟩ := hc
    rw [h.sameKind id' c' row hc' hrow]
    split_ifs <;> rfl
  · simp only [hne, if_false, ChannelIndex.remove]
    exact hoff g m hne

variable (unmarshalRaw) in
theorem updateRowStatus_cases (s : ChannelStore) (id : ℕ) (usingKey : String)
    (status : ChannelStatus) (reason : String) (now : ℤ) :
    (s.updateRowStatus unmarshalRaw id usingKey status reason now).1 = s ∨
      ∃ row abilities, s.channels.find id = some row ∧
        (s.updateRowStatus unmarshalRaw id usingKey status reason now).1 =
          { s with
            channels := s.channels.put (updatedRow unmarshalRaw row usingKey status reason now)
            abilities } := by
  unfold updateRowStatus
  split
  · exact .inl rfl
  · rename_i row hrow
    split
    · exact .inl rfl
    · dsimp only
      split <;> exact .inr ⟨row, _, hrow, rfl⟩

theorem updatedRow_id (row : Channel) (usingKey : String) (status : ChannelStatus)
    (reason : String) (now : ℤ) :
    (updatedRow unmarshalRaw row usingKey status reason now).id = row.id := by
  unfold updatedRow
  split_ifs
  · exact handlerMultiKeyUpdate_id unmarshalRaw row usingKey status reason now
  · rfl

theorem updatedRow_isMultiKey (row : Channel) (usingKey : String) (status : ChannelStatus)
    (reason : String) (now : ℤ) :
    (updatedRow unmarshalRaw row usingKey status reason now).channelInfo.isMultiKey =
      row.channelInfo.isMultiKey := by
  unfold updatedRow
  split_ifs
  · exact (handlerMultiKeyUpdate_same row usingKey status reason now).1
  · rfl

theorem inv_updateRowStatus (h : Inv s) {id : ℕ} {usingKey : String} {reason : String} {now : ℤ}
    (hst : ∀ row, s.channels.find id = some row → ∀ g m, id ∈ s.group2model2channels g m →
      (updatedRow unmarshalRaw row usingKey status reason now).status = .enabled) :
    Inv (s.updateRowStatus unmarshalRaw id usingKey status reason now).1 := by
  rcases updateRowStatus_cases unmarshalRaw s id usingKey status reason now with
    heq | ⟨row, abilities, hrow, heq⟩
  · rwa [heq]
  · rw [heq]
    exact h.putRow hrow ((updatedRow_id row usingKey status reason now).trans
      (Table.key_of_find hrow)) (updatedRow_isMultiKey row usingKey status reason now)
      (hst row hrow) abilities

theorem inv_updateChannelStatus (h : Inv s) {id : ℕ} {usingKey : String} {reason : String} {now : ℤ}
    (hs : steady unmarshalRaw s (.updateChannelStatus id usingKey status reason now) = true) :
    Inv (s.updateChannelStatus unmarshalRaw id usingKey status reason now).1 := by
  unfold updateChannelStatus updateCachedStatus
  rw [if_neg (by simp [h.cacheOn])]
  rcases hch : s.channelsIDM.find id with _ | ch
  · exact h
  simp only [steady, hch, all_some] at hs
  by_cases hmulti : ch.channelInfo.isMultiKey = true
  · rw [if_pos hmulti, Bool.and_eq_true] at hs
    simp only [if_pos hmulti]
    refine inv_updateRowStatus (h.putCached hch
      ((handlerMultiKeyUpdate_id unmarshalRaw ch usingKey status reason now).trans
        (Table.key_of_find hch)) (handlerMultiKeyUpdate_same ch usingKey status reason now).2
      (handlerMultiKeyUpdate_same ch usingKey status reason now).1
      fun hen => handlerMultiKeyUpdate_enabled ch usingKey status reason now hen hs.1) ?_
    intro row hrow g m hmem
    obtain ⟨-, row', hrow', hen⟩ := h.listed g m id hmem
    obtain rfl : row' = row := some.inj (hrow'.symm.trans hrow)
    have hkeep := hs.2
    rw [hrow', all_some] at hkeep
    rw [updatedRow, if_pos (by rw [h.sameKind id ch row' hch hrow', hmulti])]
    exact handlerMultiKeyUpdate_enabled row' usingKey status reason now hen hkeep
  · rw [if_neg hmulti, Bool.or_eq_true, decide_eq_true_eq] at hs
    simp only [if_neg hmulti]
    split_ifs
    · exact h
    · obtain ⟨hinv, hoff⟩ := h.cacheUpdate hch hs
      refine inv_updateRowStatus hinv fun row hrow g m hmem => ?_
      have hst : status = .enabled := by
        by_contra hne
        exact hoff hne g m hmem
      have hrow' : s.channels.find id = some row := by
        unfold cacheUpdateChannelStatus at hrow
        split_ifs at hrow <;> exact hrow
      rw [updatedRow, if_neg (by rw [h.sameKind id ch row hch hrow']; exact hmulti)]
      exact hst

theorem inv_step {e : Event} (h : Inv s) (hs : steady unmarshalRaw s e = true) :
    Inv (step unmarshalRaw s e) := by
  cases e with
  | initChannelCache => exact inv_initChannelCache h
  | updateChannelStatus => exact inv_updateChannelStatus h hs

theorem walkWeights_mem {α : Type} {weight : α → ℕ} {slack : ℕ} {a : α} :
    ∀ {l : List α} {r : ℕ}, walkWeights weight slack r l = some a → a ∈ l
  | [], _, h => by simp [walkWeights] at h
  | b :: l, r, h => by
    unfold walkWeights at h
    split_ifs at h
    · rw [some.injEq] at h
      exact h ▸ mem_cons_self
    · exact mem_cons_of_mem b (walkWeights_mem h)

theorem chooseChannel_mem {targets : List Channel} {draw : ℕ}
    (h : chooseChannel targets draw = some ch) : ch ∈ targets := by
  simp only [chooseChannel] at h
  split_ifs at h <;> exact walkWeights_mem h

theorem cachedChannels_mem : ∀ {ids : List ℕ} {chs : List Channel},
    s.cachedChannels ids = .ok chs → ∀ ch ∈ chs, ch.id ∈ ids ∧ s.channelsIDM.find ch.id = some ch
  | [], chs, h, ch, hch => by
    simp only [cachedChannels, Except.ok.injEq] at h
    simp [← h] at hch
  | id :: ids, chs, h, ch, hch => by
    unfold cachedChannels at h
    split at h
    · cases h
    · rename_i c hc
      split at h
      · cases h
      · rename_i rest hrest
        cases h
        rcases mem_cons.1 hch with rfl | hmem
        · have hid := Table.key_of_find hc
          exact ⟨hid ▸ mem_cons_self, by rw [hid, hc]⟩
        · obtain ⟨hin, hfind⟩ := cachedChannels_mem hrest ch hmem
          exact ⟨mem_cons_of_mem id hin, hfind⟩

theorem getCachedChannel_mem {group model : String} {retry draw : ℕ}
    (h : (s.getCachedChannel group model retry draw).1 = some ch) :
    ch.id ∈ s.indexed group model ∧ s.channelsIDM.find ch.id = some ch := by
  unfold getCachedChannel at h
  split at h
  · cases h
  · rename_i id hids
    split at h
    · rename_i c hc
      cases h
      have hid := Table.key_of_find hc
      rw [hids, hid]
      exact ⟨mem_singleton_self id, hc⟩
    · cases h
  · split at h
    · cases h
    · rename_i chs hchs
      dsimp only at h
      split at h
      · cases h
      · rename_i c rest htargets
        split at h
        · rename_i c' hc'
          rw [some.injEq] at h
          subst h
          have hmem := chooseChannel_mem hc'
          rw [← htargets] at hmem
          exact cachedChannels_mem hchs c' (mem_of_mem_filter hmem)
        · cases h

theorem mem_of_indexed {group model : String} {id : ℕ}
    (h : id ∈ s.indexed group model) : ∃ m, id ∈ s.group2model2channels group m := by
  unfold indexed at h
  split_ifs at h
  · exact ⟨_, h⟩
  · exact ⟨_, h⟩

/-- Over any sequence of planned rebuilds and updates, a listed channel is enabled in the cache, and
what is picked in the table too. -/
theorem listed_channels_enabled (channels : Table Channel.id) (abilities : List Ability)
    (es : List Event)
    (h : Along (step unmarshalRaw) (fun s e => steady unmarshalRaw s e = true)
      (start channels abilities) es) :
    (∀ g m id, id ∈ (run (step unmarshalRaw) (start channels abilities) es).group2model2channels
        g m → ∃ ch, (run (step unmarshalRaw) (start channels abilities) es).channelsIDM.find id =
          some ch ∧ ch.status = .enabled) ∧
      ∀ g m retry draw ch, ((run (step unmarshalRaw) (start channels abilities)
          es).getRandomSatisfiedChannel g m retry draw).1 = some ch →
        ch.status = .enabled ∧ ∃ row, (run (step unmarshalRaw) (start channels abilities)
          es).channels.find ch.id = some row ∧ row.status = .enabled := by
  have hinv : Inv (run (step unmarshalRaw) (start channels abilities) es) :=
    Along.run_inv (fun _ _ hs he => inv_step hs he) (inv_start channels abilities) h
  refine ⟨fun g m id hid => (hinv.listed g m id hid).1, fun g m retry draw ch hch => ?_⟩
  rw [getRandomSatisfiedChannel, if_neg (by simp [hinv.cacheOn])] at hch
  obtain ⟨hmem, hfind⟩ := getCachedChannel_mem hch
  obtain ⟨m', hm'⟩ := mem_of_indexed hmem
  obtain ⟨⟨c, hc, hen⟩, hrow⟩ := hinv.listed g m' ch.id hm'
  obtain rfl : c = ch := Option.some.inj (hc.symm.trans hfind)
  exact ⟨hen, hrow⟩

def sampleChannels (models : String) : Table Channel.id :=
  ((⟨[], nodup_nil⟩ : Table Channel.id).insert { id := 1, key := "k", models }).insert
    { id := 2, key := "a\nb", models := "n",
      channelInfo := { isMultiKey := true, multiKeySize := 2 } }

def sampleAbilities : List Ability :=
  [{ group := "default", model := "m", channelId := 1 },
    { group := "default", model := "n", channelId := 2 }]

def sampleDisables (keys : List String) : List Event :=
  .initChannelCache :: .updateChannelStatus 1 "k" .autoDisabled "quota" 0 ::
    keys.map fun key => .updateChannelStatus 2 key .autoDisabled "quota" 0

theorem listed_channels_enabled_sample :
    ((run (step fun _ => none) (start (sampleChannels "m") sampleAbilities)
      (sampleDisables ["a"])).getRandomSatisfiedChannel "default" "n" 0 0).1.map Channel.id =
        some 2 ∧
    ∀ g m id, id ∈ (run (step fun _ => none) (start (sampleChannels "m") sampleAbilities)
      (sampleDisables ["a"])).group2model2channels g m →
      ∃ ch, (run (step fun _ => none) (start (sampleChannels "m") sampleAbilities)
        (sampleDisables ["a"])).channelsIDM.find id = some ch ∧ ch.status = .enabled :=
  ⟨by decide, (@listed_channels_enabled (fun _ => none) (sampleChannels "m")
    sampleAbilities (sampleDisables ["a"]) (by decide)).1⟩

/-- A channel that names a model twice stays listed when it is disabled, and so does one whose
last key is disabled; both are still picked. -/
theorem disabled_channels_picked :
    ((run (step fun _ => none) (start (sampleChannels "m,m") sampleAbilities)
      (sampleDisables ["a", "b"])).getRandomSatisfiedChannel "default" "m" 0 0).1.map
        Channel.status = some .autoDisabled ∧
    ((run (step fun _ => none) (start (sampleChannels "m,m") sampleAbilities)
      (sampleDisables ["a", "b"])).getRandomSatisfiedChannel "default" "n" 0 0).1.map
        Channel.status = some .autoDisabled := by
  decide

end ChannelStore

end AggreApi
