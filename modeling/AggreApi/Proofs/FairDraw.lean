import AggreApi.KeyPolling
import AggreApi.Proofs.ChannelSelect

/-!
# Fair draws

Counted over all draws, the walk through the memory cache chooses a channel as often as its weight
says. That through the tables stops one draw later, which the first channel gains and the last one
loses. Polling walks the enabled keys in a circle.
-/

namespace AggreApi

open List

section Walk
variable {α : Type} {weight : α → ℕ} (id : α → ℕ)

theorem count_congr_lt {p q : ℕ → Prop} [DecidablePred p] [DecidablePred q] {n : ℕ}
    (h : ∀ k < n, p k ↔ q k) : Nat.count p n = Nat.count q n := by
  rw [Nat.count_eq_card_filter_range, Nat.count_eq_card_filter_range]
  exact congrArg _ (Finset.filter_congr fun k hk => h k (Finset.mem_range.1 hk))

theorem walk_ne {b : α} {l : List α} (hnodup : ((b :: l).map id).Nodup) {slack r : ℕ} :
    (walkWeights weight slack r l).map id ≠ some (id b) := by
  intro h
  obtain ⟨c, hc, hid⟩ := Option.map_eq_some_iff.1 h
  rw [map_cons, nodup_cons] at hnodup
  exact hnodup.1 (hid ▸ mem_map_of_mem (ChannelStore.walkWeights_mem hc))

theorem count_walk : ∀ {l : List α}, (l.map id).Nodup → ∀ a ∈ l,
    Nat.count (fun r => (walkWeights weight 0 r l).map id = some (id a)) (l.map weight).sum =
      weight a
  | b :: l, hnodup, a, ha => by
    have hhead : ∀ r < weight b, walkWeights weight 0 r (b :: l) = some b := by
      intro r hr
      rw [walkWeights, if_pos (by omega)]
    rw [map_cons, sum_cons, Nat.count_add]
    simp only [walkWeights_after]
    rcases mem_cons.1 ha with rfl | ha
    · rw [Nat.count_of_forall fun r hr => by simp [hhead r hr],
        Nat.count_of_forall_not fun r _ => walk_ne id hnodup, Nat.add_zero]
    · have hne : id b ≠ id a := by
        rw [map_cons, nodup_cons] at hnodup
        exact fun h => hnodup.1 (h ▸ mem_map_of_mem ha)
      rw [Nat.count_of_forall_not fun r hr => by simp [hhead r hr, hne],
        count_walk (nodup_cons.1 hnodup).2 a ha, Nat.zero_add]

theorem count_slack_first {b c : α} {l : List α} (hnodup : ((b :: c :: l).map id).Nodup)
    (hc : 0 < weight c) :
    Nat.count (fun r => (walkWeights weight 1 r (b :: c :: l)).map id = some (id b))
      ((b :: c :: l).map weight).sum = weight b + 1 := by
  have hexact := @count_walk _ weight id _ hnodup b (by simp)
  obtain ⟨n, hn⟩ : ∃ n, ((b :: c :: l).map weight).sum = weight b + n + 1 :=
    ⟨weight c + (l.map weight).sum - 1, by simp only [map_cons, sum_cons]; omega⟩
  rw [hn, Nat.count_succ] at hexact
  simp only [walkWeights_after, walk_ne id hnodup, if_false, Nat.add_zero] at hexact
  rw [hn, Nat.count_succ']
  simp only [walkWeights_slack]
  rw [hexact, if_pos (by simp [walkWeights])]

end Walk

namespace ChannelStore

variable {s : ChannelStore} {group model : String} {retry : ℕ}

/-- The memory cache draws every channel as often as its weight says; the tables do so only for a
channel alone. -/
theorem weighted_draw_iff {targets : List Channel} (hne : targets ≠ [])
    (hid : (targets.map (·.id)).Nodup) {rows : List Ability}
    (hrows : s.getChannelQuery group model retry = .ok rows) (hrne : rows ≠ [])
    (hrid : (rows.map (·.channelId)).Nodup) :
    (∀ r, (chooseChannel targets r).isSome) ∧
      (∀ ch ∈ targets, Nat.count (fun r => (chooseChannel targets r).map (·.id) = some ch.id)
        (totalWeight targets) = effectiveWeight targets ch) ∧
      (∀ r, ∃ b ∈ rows, (s.getChannel group model retry r).1.map (·.id) = some b.channelId) ∧
      ((∀ b ∈ rows, Nat.count
          (fun r => (s.getChannel group model retry r).1.map (·.id) = some b.channelId)
          (rows.map fun b => b.weight + 10).sum = b.weight + 10) ↔ rows.length = 1) := by
  obtain ⟨sorted, hperm, hwalk⟩ := getChannel_walk hrows hrne
  have hget : ∀ r, ∃ a ∈ sorted, walkWeights (fun b => b.weight + 10) 1
      (r % (sorted.map fun b => b.weight + 10).sum) sorted = some a ∧
        (s.getChannel group model retry r).1.map (·.id) = some a.channelId := by
    intro r
    obtain ⟨a, ha, hget⟩ := hwalk r
    refine ⟨a, walkWeights_mem ha, ha, ?_⟩
    rw [hget]
    rcases hfind : s.channels.find a.channelId with _ | ch
    · rfl
    · exact congrArg some (Table.key_of_find hfind)
  have hcount : ∀ b : Ability, Nat.count
      (fun r => (s.getChannel group model retry r).1.map (·.id) = some b.channelId)
      (rows.map fun b => b.weight + 10).sum = Nat.count (fun r => (walkWeights
        (fun b => b.weight + 10) 1 r sorted).map (·.channelId) = some b.channelId)
        (sorted.map fun b => b.weight + 10).sum := by
    intro b
    rw [← (hperm.map _).sum_eq]
    refine count_congr_lt fun r hr => ?_
    obtain ⟨a, -, ha, hr'⟩ := hget r
    rw [Nat.mod_eq_of_lt hr] at ha
    rw [hr', ha, Option.map_some]
  refine ⟨fun r => ?_, fun ch hch => ?_, fun r => ?_, ?_⟩
  · obtain ⟨ch, hch⟩ := chooseChannel_isSome hne r
    rw [hch, Option.isSome_some]
  · rw [← @count_walk _ (effectiveWeight targets) (·.id) _ hid ch hch, sum_effectiveWeight]
    exact count_congr_lt fun r hr => by rw [chooseChannel_eq, Nat.mod_eq_of_lt hr]
  · obtain ⟨a, ha, -, hr⟩ := hget r
    exact ⟨a, hperm.subset ha, hr⟩
  · rw [← hperm.length_eq]
    simp only [hcount, ← hperm.mem_iff]
    rcases sorted with _ | ⟨b, _ | ⟨c, rest⟩⟩
    · exact absurd hperm.symm.eq_nil hrne
    · refine iff_of_true (fun x hx => ?_) rfl
      rw [mem_singleton.1 hx]
      refine (Nat.count_of_forall fun r hr => ?_).trans (by simp)
      rw [walkWeights, if_pos (by simpa using Nat.lt_succ_of_lt hr), Option.map_some]
    · refine iff_of_false (fun h => ?_) (by simp)
      have hfirst := h b mem_cons_self
      rw [count_slack_first Ability.channelId ((hperm.map _).nodup_iff.2 hrid) (Nat.succ_pos _)]
        at hfirst
      omega

def sampleStore : ChannelStore where
  channels := ⟨[{ id := 1 }, { id := 2 }], by decide⟩
  abilities := [⟨"default", "m", 1, true, 0, 0⟩, ⟨"default", "m", 2, true, 0, 0⟩]

theorem weighted_draw_iff_sample :
    (∀ r, (chooseChannel [{ id := 1 }, { id := 2 }] r).isSome) ∧
      ¬ ∀ b ∈ sampleStore.abilities, Nat.count
        (fun r => (sampleStore.getChannel "default" "m" 0 r).1.map (·.id) = some b.channelId)
        (sampleStore.abilities.map fun b => b.weight + 10).sum = b.weight + 10 := by
  have h := @weighted_draw_iff sampleStore "default" "m" 0 [{ id := 1 }, { id := 2 }] (by simp)
    (by simp) sampleStore.abilities (by decide +kernel) (by simp [sampleStore])
    (by simp [sampleStore])
  exact ⟨h.1, fun hall => absurd (h.2.2.2.1 hall) (by simp [sampleStore])⟩

/-- Of two channels of the same weight one is drawn eleven times in twenty. -/
theorem first_channel_favoured : Nat.count
    (fun r => (sampleStore.getChannel "default" "m" 0 r).1.map (·.id) = some 1) 20 = 11 := by
  decide +kernel

end ChannelStore

/-- The enabled indices below `n`, from `start` on and round. -/
def keyCycle (n : ℕ) (enabled : ℕ → Bool) (start : ℕ) : List ℕ :=
  ((List.range n).rotate start).filter enabled

theorem keyCycle_next {n start idx : ℕ} {enabled : ℕ → Bool} {rest : List ℕ}
    (h : keyCycle n enabled start = idx :: rest) :
    keyCycle n enabled ((idx + 1) % n) = rest ++ [idx] := by
  obtain ⟨pre, post, hsplit, hpre, hidx, hpost⟩ := filter_eq_cons_iff.1 h
  have hget : idx = (start + pre.length) % n := by
    have := congrArg (·[pre.length]?) hsplit
    simp only [getElem?_append_right le_rfl, Nat.sub_self, getElem?_cons_zero] at this
    have hlt : pre.length < n := by
      have := congrArg List.length hsplit
      simp at this
      omega
    rw [getElem?_rotate (by simpa using hlt)] at this
    simp only [length_range] at this
    rw [getElem?_range (Nat.mod_lt _ (by omega)), Option.some.injEq] at this
    rw [← this, Nat.add_comm]
  have hrot : (List.range n).rotate ((idx + 1) % n) = post ++ (pre ++ [idx]) := by
    have hmod := rotate_mod (List.range n) (start + (pre.length + 1))
    rw [length_range] at hmod
    rw [hget, Nat.mod_add_mod, Nat.add_assoc, hmod, ← rotate_rotate, hsplit,
      ← rotate_rotate, rotate_append_length_eq]
    simpa using hget
  have hnone : pre.filter enabled = [] := by simpa using hpre
  rw [keyCycle, hrot, filter_append, filter_append, hnone, hpost]
  simp [hidx]

namespace ChannelStore

variable {unmarshalRaw : String → Option (List String)} {id : ℕ} {s : ChannelStore}
  {keys : List String} {enabled : ℕ → Bool} {start : ℕ}

structure PollsKeys (unmarshalRaw : String → Option (List String)) (keys : List String)
    (enabled : ℕ → Bool) (ch : Channel) : Prop where
  multi : ch.channelInfo.isMultiKey = true
  mode : ch.channelInfo.multiKeyMode = .polling
  keys : ch.getKeys unmarshalRaw = keys
  enabled : ch.keyEnabled = enabled

def pollStart (n : ℕ) (index : ℤ) : ℕ := if index < 0 ∨ (n : ℤ) ≤ index then 0 else index.toNat

/-- The row and the cached copy of a polling channel, which polls from `start` on. -/
def Polling (unmarshalRaw : String → Option (List String)) (id : ℕ) (keys : List String)
    (enabled : ℕ → Bool) (start : ℕ) (s : ChannelStore) : Prop :=
  (∃ row, s.channels.find id = some row ∧ PollsKeys unmarshalRaw keys enabled row) ∧
    ∃ ch, s.channelsIDM.find id = some ch ∧ PollsKeys unmarshalRaw keys enabled ch ∧
      pollStart keys.length ch.channelInfo.multiKeyPollingIndex = start

theorem Polling.rebuild (h : Polling unmarshalRaw id keys enabled start s) (hne : keys ≠ []) :
    Polling unmarshalRaw id keys enabled start (s.initChannelCache unmarshalRaw) := by
  obtain ⟨⟨row, hrow, hpolls⟩, ch, hch, hcached, hstart⟩ := h
  unfold initChannelCache
  split_ifs
  · exact ⟨⟨row, hrow, hpolls⟩, ch, hch, hcached, hstart⟩
  · exact ⟨⟨row, hrow, hpolls⟩, ch, hch, hcached, hstart⟩
  · obtain rfl := Table.key_of_find hrow
    have hkey : row.key ≠ "" := by
      intro hempty
      rw [← hpolls.keys, Channel.getKeys, if_pos hempty] at hne
      exact hne rfl
    let info := { row.channelInfo with
      multiKeyPollingIndex := ch.channelInfo.multiKeyPollingIndex }
    have hload : loadChannel unmarshalRaw s.channelsIDM row =
        { row with keys, channelInfo := info } := by
      simp [info, loadChannel, hch, hpolls.multi, hpolls.mode, hpolls.keys, hcached.multi,
        hcached.mode]
    refine ⟨⟨row, hrow, hpolls⟩, { row with keys, channelInfo := info }, ?_,
      ⟨hpolls.multi, hpolls.mode, ?_, hpolls.enabled⟩, hstart⟩
    · simp only [Table.find_map, hrow, Option.map_some, hload]
    · simp [Channel.getKeys, hkey, hne]

theorem Polling.next (h : Polling unmarshalRaw id keys enabled start s) {idx : ℕ} {rest : List ℕ}
    (hcycle : keyCycle keys.length enabled start = idx :: rest) :
    (s.pollKey unmarshalRaw id).2 =
        .ok ⟨keys.getD idx "", idx, ((idx + 1) % keys.length : ℕ)⟩ ∧
      Polling unmarshalRaw id keys enabled ((idx + 1) % keys.length)
        (s.pollKey unmarshalRaw id).1 := by
  obtain ⟨hrow, ch, hch, hpolls, hstart⟩ := h
  obtain rfl := Table.key_of_find hch
  have hidx : idx ∈ List.range keys.length ∧ enabled idx = true := by
    have : idx ∈ keyCycle keys.length enabled start := hcycle ▸ mem_cons_self
    simpa [keyCycle] using this
  have hlt : idx < keys.length := mem_range.1 hidx.1
  have hscan : ((List.range keys.length).map fun i => (start + i) % keys.length).find? enabled =
      some idx := by
    have hrot : ((List.range keys.length).map fun i => (start + i) % keys.length) =
        (List.range keys.length).rotate start := by
      apply ext_getElem
      · simp
      · intro j h₁ h₂
        simp [getElem_rotate, Nat.add_comm]
    rw [hrot, ← List.head?_filter]
    exact congrArg List.head? hcycle
  have hpick : ch.getNextEnabledKey unmarshalRaw { cached := some ch.channelInfo } =
      .ok ⟨keys.getD idx "", idx, ((idx + 1) % keys.length : ℕ)⟩ := by
    unfold pollStart at hstart
    simp only [Channel.getNextEnabledKey, hpolls.multi, hpolls.mode, hpolls.keys, hpolls.enabled,
      Bool.not_true, Bool.false_eq_true, if_false, hstart, hscan]
    rcases hlist : (List.range keys.length).filter enabled with _ | ⟨first, more⟩
    · exact absurd hidx.2 (filter_eq_nil_iff.1 hlist idx hidx.1)
    · rfl
  let info := { ch.channelInfo with multiKeyPollingIndex := ((idx + 1) % keys.length : ℕ) }
  have hpoll : s.pollKey unmarshalRaw ch.id =
      ({ s with channelsIDM := s.channelsIDM.put { ch with channelInfo := info } },
        .ok ⟨keys.getD idx "", idx, ((idx + 1) % keys.length : ℕ)⟩) := by
    simp only [info, pollKey, hch, hpick]
  rw [hpoll]
  refine ⟨rfl, hrow, { ch with channelInfo := info },
    Table.find_put_self (a := { ch with channelInfo := info }) hch,
    ⟨hpolls.multi, hpolls.mode, hpolls.keys, hpolls.enabled⟩, ?_⟩
  have := Nat.mod_lt (idx + 1) (Nat.zero_lt_of_lt hlt)
  simp only [pollStart, info]
  rw [if_neg (by omega), Int.toNat_natCast]

def keyPick (keys : List String) (idx : ℕ) : Except RelayError KeyPick :=
  .ok ⟨keys.getD idx "", idx, ((idx + 1) % keys.length : ℕ)⟩

theorem pollKeys_eq (hne : keys ≠ []) : ∀ {es : List CachedCall} {s : ChannelStore} {start : ℕ},
    Polling unmarshalRaw id keys enabled start s → keyCycle keys.length enabled start ≠ [] →
    s.pollKeys unmarshalRaw id es = (List.range (es.count .nextKey)).map fun j =>
      keyPick keys (((keyCycle keys.length enabled start).rotate j).headD 0)
  | [], _, _, _, _ => rfl
  | .rebuild :: es, s, start, h, hcycle => by
    rw [pollKeys, pollKeys_eq hne (h.rebuild hne) hcycle, count_cons_of_ne (by decide)]
  | .nextKey :: es, s, start, h, hcycle => by
    obtain ⟨idx, rest, hlist⟩ := exists_cons_of_ne_nil hcycle
    obtain ⟨hpick, hnext⟩ := h.next hlist
    have hturn := keyCycle_next hlist
    rw [pollKeys, hpick, pollKeys_eq hne hnext (by simp [hturn]), count_cons_self,
      range_succ_eq_map, map_cons, map_map, hturn, hlist]
    refine congrArg _ (map_congr_left fun j _ => ?_)
    simp only [Function.comp_apply, Nat.succ_eq_add_one, Nat.add_comm j 1, ← rotate_rotate]
    simp

/-- Calls on a cached channel never return a disabled key, and as many of them as keys are enabled
return each once, in a circle, whatever rebuilds of the cache lie between. -/
theorem polling_fair {row ch : Channel} (hrow : s.channels.find id = some row)
    (hch : s.channelsIDM.find id = some ch) (hmulti : ch.channelInfo.isMultiKey = true)
    (hmode : ch.channelInfo.multiKeyMode = .polling)
    (hrmulti : row.channelInfo.isMultiKey = true) (hrmode : row.channelInfo.multiKeyMode = .polling)
    (hkeys : row.getKeys unmarshalRaw = ch.getKeys unmarshalRaw)
    (hstatus : row.keyEnabled = ch.keyEnabled)
    (hone : ∃ i < (ch.getKeys unmarshalRaw).length, ch.keyEnabled i = true)
    (es : List CachedCall) :
    let keys := ch.getKeys unmarshalRaw
    let start := pollStart keys.length ch.channelInfo.multiKeyPollingIndex
    (∀ r ∈ s.pollKeys unmarshalRaw id es, ∃ i < keys.length, ch.keyEnabled i = true ∧
        r = keyPick keys i) ∧
      (es.count .nextKey = ((List.range keys.length).filter ch.keyEnabled).length →
        s.pollKeys unmarshalRaw id es =
          (((List.range keys.length).rotate start).filter ch.keyEnabled).map (keyPick keys)) := by
  intro keys start
  have hpolling : Polling unmarshalRaw id keys ch.keyEnabled start s :=
    ⟨⟨row, hrow, hrmulti, hrmode, hkeys, hstatus⟩, ch, hch, ⟨hmulti, hmode, rfl, rfl⟩, rfl⟩
  obtain ⟨i, hi, hen⟩ := hone
  have hne : keys ≠ [] := by
    intro h
    simp [keys, h] at hi
  have hcycle : keyCycle keys.length ch.keyEnabled start ≠ [] := by
    refine ne_nil_of_mem (a := i) ?_
    simpa [keyCycle] using ⟨hi, hen⟩
  rw [pollKeys_eq hne hpolling hcycle]
  have hget : ∀ j, (keyCycle keys.length ch.keyEnabled start).rotate j ≠ [] := by
    intro j
    simpa using hcycle
  constructor
  · intro r hr
    obtain ⟨j, -, rfl⟩ := mem_map.1 hr
    obtain ⟨idx, rest, hrot⟩ := exists_cons_of_ne_nil (hget j)
    have hmem : idx ∈ keyCycle keys.length ch.keyEnabled start :=
      mem_rotate.1 (hrot ▸ mem_cons_self)
    rw [hrot]
    simp only [keyCycle, mem_filter, mem_rotate, mem_range] at hmem
    exact ⟨idx, hmem.1, hmem.2, rfl⟩
  · intro hcount
    have hlen : (keyCycle keys.length ch.keyEnabled start).length = es.count .nextKey := by
      rw [hcount]
      exact ((rotate_perm _ _).filter _).length_eq
    rw [← hlen]
    apply ext_getElem
    · simp [keyCycle]
    · intro j h₁ h₂
      have hj : j < (keyCycle keys.length ch.keyEnabled start).length := by simpa using h₁
      simp only [getElem_map, getElem_range, headD_eq_head?_getD,
        List.head?_rotate hj, getElem?_eq_getElem hj, Option.getD_some]
      rfl

/-- Three keys, of which the second is disabled, polled from an index out of range. -/
def polledChannel : Channel where
  id := 1
  key := "a\nb\nc"
  keys := ["a", "b", "c"]
  channelInfo :=
    { isMultiKey := true
      multiKeyMode := .polling
      multiKeyPollingIndex := 7
      multiKeyStatusList := AList.insert 1 .manuallyDisabled ∅ }

def polledStore : ChannelStore where
  channels := ⟨[polledChannel], by decide⟩
  abilities := []
  channelsIDM := ⟨[polledChannel], by decide⟩

theorem polling_fair_sample :
    polledStore.pollKeys (fun _ => none) 1 [.nextKey, .rebuild, .nextKey] =
      [keyPick ["a", "b", "c"] 0, keyPick ["a", "b", "c"] 2] := by
  have h := @polling_fair (fun _ => none) 1 polledStore polledChannel polledChannel rfl rfl rfl rfl
    rfl rfl rfl rfl ⟨0, by decide, by decide⟩ [.nextKey, .rebuild, .nextKey]
  exact h.2 (by decide)

end ChannelStore

end AggreApi
