import AggreApi.Proofs.AbilityMirror

/-!
# The status of a multi-key channel

`UpdateChannelStatus` updates the cached channel first and the row after it, but leaves the row
alone where its own status is the one asked for, and never sets a channel enabled again.
-/

namespace AggreApi

open List

namespace ChannelInfo

def AllDisabled (info : ChannelInfo) (n : ℕ) : Prop := ∀ i < n, info.keyStatus i ≠ .enabled

instance (info : ChannelInfo) (n : ℕ) : Decidable (info.AllDisabled n) :=
  inferInstanceAs (Decidable (∀ i < n, info.keyStatus i ≠ .enabled))

def channelStatus (info : ChannelInfo) (n : ℕ) : ChannelStatus :=
  if info.AllDisabled n then .autoDisabled else .enabled

end ChannelInfo

theorem length_entries_congr {α β : Type} [DecidableEq α] {m m' : AList fun _ : α => β}
    (h : ∀ a, m.lookup a = m'.lookup a) : m.entries.length = m'.entries.length := by
  refine (lookup_ext m.nodupKeys m'.nodupKeys fun a b => ?_).length_eq
  exact iff_of_eq (congrArg (b ∈ ·) (h a))

theorem ChannelInfo.AllDisabled.le_length {info : ChannelInfo} {n : ℕ}
    (h : info.AllDisabled n) : n ≤ info.multiKeyStatusList.entries.length := by
  have hsub : List.range n ⊆ info.multiKeyStatusList.keys := by
    intro i hi
    rw [← AList.mem_keys, ← AList.lookup_isSome, Option.isSome_iff_ne_none]
    intro hnone
    exact h i (mem_range.1 hi) (by rw [keyStatus, hnone]; rfl)
  have hle := (nodup_range.subperm hsub).length_le
  rwa [length_range, AList.keys, keys, length_map] at hle

namespace ChannelStore

variable (unmarshalRaw : String → Option (List String))

theorem lookup_updateKeyStatus (info : ChannelInfo) (i : ℕ) (status : ChannelStatus)
    (reason : String) (now : ℤ) (j : ℕ) :
    (updateKeyStatus info i status reason now).multiKeyStatusList.lookup j =
      if j = i then if status = .enabled then none else some status
      else info.multiKeyStatusList.lookup j := by
  by_cases hst : status = .enabled
  · by_cases hj : j = i
    · subst hj
      simp [updateKeyStatus, hst, AList.lookup_erase]
    · simp [updateKeyStatus, hst, hj, AList.lookup_erase_ne hj]
  · by_cases hj : j = i
    · subst hj
      simp [updateKeyStatus, hst, AList.lookup_insert]
    · simp [updateKeyStatus, hst, hj, AList.lookup_insert_ne hj]

/-- A channel in multi-key mode with the given keys, by its own count too. -/
structure HasKeys (keys : List String) (ch : Channel) : Prop where
  multi : ch.channelInfo.isMultiKey = true
  keys_eq : ch.getKeys unmarshalRaw = keys
  size : ch.channelInfo.multiKeySize = keys.length

structure KeyCall where
  usingKey : String
  status : ChannelStatus
  reason : String := ""
  now : ℤ := 0

variable (id : ℕ) (keys : List String)

structure Paired (s : ChannelStore) (row ch : Channel) : Prop where
  on : s.memoryCacheEnabled = true
  stored : s.channels.find id = some row
  cached : s.channelsIDM.find id = some ch
  row_keys : HasKeys unmarshalRaw keys row
  cached_keys : HasKeys unmarshalRaw keys ch
  statuses : ∀ i, ch.channelInfo.multiKeyStatusList.lookup i =
    row.channelInfo.multiKeyStatusList.lookup i
  status : ch.status = row.status

def call (s : ChannelStore) (c : KeyCall) : ChannelStore :=
  (s.updateChannelStatus unmarshalRaw id c.usingKey c.status c.reason c.now).1

def Sets (c : KeyCall) (old new : ChannelInfo) : Prop :=
  ∀ i k, keys[i]? = some k → new.keyStatus i = if k = c.usingKey then c.status else old.keyStatus i

def Coherent (s s' : ChannelStore) (c : KeyCall) : Prop :=
  ∃ row ch row' ch' : Channel, s.channels.find id = some row ∧ s.channelsIDM.find id = some ch ∧
    s'.channels.find id = some row' ∧ s'.channelsIDM.find id = some ch' ∧
    Sets keys c row.channelInfo row'.channelInfo ∧ Sets keys c ch.channelInfo ch'.channelInfo ∧
    (∀ i, ch'.channelInfo.multiKeyStatusList.lookup i =
      row'.channelInfo.multiKeyStatusList.lookup i) ∧
    row'.status = row'.channelInfo.channelStatus keys.length ∧
    ch'.status = ch'.channelInfo.channelStatus keys.length

def Takes (row : Channel) (c : KeyCall) : Prop :=
  let i := keys.idxOf c.usingKey
  (∀ j, keys[j]? = some c.usingKey → j ≠ i → row.channelInfo.keyStatus j = c.status) ∧
    if c.status = .enabled then
      row.status = .enabled ∧ row.channelInfo.multiKeyStatusList.lookup i = none ∧
        exhausts unmarshalRaw row c.usingKey .enabled = false
    else if row.status = c.status then
      c.status = .autoDisabled ∧ row.channelInfo.multiKeyStatusList.lookup i = some c.status ∧
        row.channelInfo.AllDisabled keys.length
    else (∀ j < keys.length, j ≠ i → row.channelInfo.keyStatus j ≠ .enabled) ∨
      row.status = .enabled ∧ exhausts unmarshalRaw row c.usingKey c.status = false

variable {unmarshalRaw id keys}

theorem handler_keys {ch : Channel} (h : HasKeys unmarshalRaw keys ch) (hne : keys ≠ [])
    (c : KeyCall) :
    (handlerMultiKeyUpdate unmarshalRaw ch c.usingKey c.status c.reason c.now).channelInfo =
        updateKeyStatus ch.channelInfo (keyIndex keys c.usingKey) c.status c.reason c.now ∧
      HasKeys unmarshalRaw keys
        (handlerMultiKeyUpdate unmarshalRaw ch c.usingKey c.status c.reason c.now) ∧
      (handlerMultiKeyUpdate unmarshalRaw ch c.usingKey c.status c.reason c.now).status =
        if exhausts unmarshalRaw ch c.usingKey c.status then .autoDisabled else ch.status := by
  have hkeys := h.keys_eq
  have hinfo : (handlerMultiKeyUpdate unmarshalRaw ch c.usingKey c.status c.reason
      c.now).channelInfo =
        updateKeyStatus ch.channelInfo (keyIndex keys c.usingKey) c.status c.reason c.now := by
    simp only [handlerMultiKeyUpdate, hkeys, hne, if_false]
    split <;> rfl
  refine ⟨hinfo, ⟨?_, ?_, ?_⟩, ?_⟩
  · rw [hinfo, updateKeyStatus_isMultiKey]
    exact h.multi
  · rw [← hkeys]
    simp only [handlerMultiKeyUpdate]
    split
    · rfl
    · split <;> rfl
  · rw [hinfo, updateKeyStatus_size]
    exact h.size
  · have hrow := ChannelDb.updatedRow_status unmarshalRaw ch c.usingKey c.status c.reason c.now
    rw [updatedRow, if_pos h.multi, hkeys, if_neg (by simp [h.multi, hne])] at hrow
    exact hrow

theorem find_call {s : ChannelStore} {row ch : Channel}
    (h : Paired unmarshalRaw id keys s row ch) (c : KeyCall) :
    (call unmarshalRaw id s c).memoryCacheEnabled = true ∧
      (call unmarshalRaw id s c).channelsIDM.find id =
        some (handlerMultiKeyUpdate unmarshalRaw ch c.usingKey c.status c.reason c.now) ∧
      (call unmarshalRaw id s c).channels.find id = some (if row.status = c.status then row else
        handlerMultiKeyUpdate unmarshalRaw row c.usingKey c.status c.reason c.now) := by
  have hch := Table.key_of_find h.cached
  have hrow := Table.key_of_find h.stored
  have hcached := @Table.find_put_self _ _ _ _ s.channelsIDM
    (handlerMultiKeyUpdate unmarshalRaw ch c.usingKey c.status c.reason c.now) ch
    (by rw [handlerMultiKeyUpdate_id, hch, h.cached])
  have hstored := @Table.find_put_self _ _ _ _ s.channels
    (handlerMultiKeyUpdate unmarshalRaw row c.usingKey c.status c.reason c.now) row
    (by rw [handlerMultiKeyUpdate_id, hrow, h.stored])
  rw [handlerMultiKeyUpdate_id, hch] at hcached
  rw [handlerMultiKeyUpdate_id, hrow] at hstored
  simp only [call, updateChannelStatus, updateCachedStatus, h.on, Bool.not_true,
    Bool.false_eq_true, if_false, h.cached, h.cached_keys.multi, if_true, updateRowStatus, h.stored,
    updatedRow, h.row_keys.multi]
  split_ifs with hst
  · exact ⟨rfl, hcached, h.stored⟩
  · exact ⟨rfl, hcached, hstored⟩
  · exact ⟨rfl, hcached, hstored⟩

section OneCall
variable {s : ChannelStore} {row ch : Channel} {c : KeyCall}

theorem exhausts_congr (h : Paired unmarshalRaw id keys s row ch) (usingKey : String)
    (status : ChannelStatus) :
    exhausts unmarshalRaw ch usingKey status = exhausts unmarshalRaw row usingKey status := by
  have hlen : ∀ i, (ch.channelInfo.multiKeyStatusList.erase i).entries.length =
      (row.channelInfo.multiKeyStatusList.erase i).entries.length := by
    intro i
    refine length_entries_congr fun j => ?_
    by_cases hj : j = i
    · rw [hj, AList.lookup_erase, AList.lookup_erase]
    · rw [AList.lookup_erase_ne hj, AList.lookup_erase_ne hj, h.statuses]
  simp [exhausts, h.row_keys.keys_eq, h.cached_keys.keys_eq, h.row_keys.size, h.cached_keys.size,
    hlen]

theorem handler_spec (h : Paired unmarshalRaw id keys s row ch) (hkey : c.usingKey ∈ keys)
    {b : Channel} (hb : b = row ∨ b = ch) :
    HasKeys unmarshalRaw keys
        (handlerMultiKeyUpdate unmarshalRaw b c.usingKey c.status c.reason c.now) ∧
      (∀ j, (handlerMultiKeyUpdate unmarshalRaw b c.usingKey c.status c.reason
          c.now).channelInfo.multiKeyStatusList.lookup j =
        if j = keys.idxOf c.usingKey then if c.status = .enabled then none else some c.status
        else row.channelInfo.multiKeyStatusList.lookup j) ∧
      (handlerMultiKeyUpdate unmarshalRaw b c.usingKey c.status c.reason c.now).status =
        if exhausts unmarshalRaw row c.usingKey c.status then .autoDisabled else row.status := by
  have hkeys : HasKeys unmarshalRaw keys b := by
    rcases hb with rfl | rfl
    exacts [h.row_keys, h.cached_keys]
  have hlookup : ∀ j, b.channelInfo.multiKeyStatusList.lookup j =
      row.channelInfo.multiKeyStatusList.lookup j := by
    rcases hb with rfl | rfl
    exacts [fun _ => rfl, h.statuses]
  have hstatus : (if exhausts unmarshalRaw b c.usingKey c.status then .autoDisabled
      else b.status) =
        if exhausts unmarshalRaw row c.usingKey c.status then .autoDisabled else row.status := by
    rcases hb with rfl | rfl
    · rfl
    · rw [exhausts_congr h, h.status]
  obtain ⟨hinfo, hkeys', hst⟩ := handler_keys hkeys (ne_nil_of_mem hkey) c
  refine ⟨hkeys', fun j => ?_, hst.trans hstatus⟩
  rw [hinfo, lookup_updateKeyStatus, hlookup, keyIndex, if_pos hkey]

variable {info info' : ChannelInfo} {n i : ℕ}

def Written (info info' : ChannelInfo) (i : ℕ) (status : ChannelStatus) : Prop :=
  ∀ j, info'.multiKeyStatusList.lookup j =
    if j = i then if status = .enabled then none else some status
    else info.multiKeyStatusList.lookup j

theorem Written.keyStatus {status : ChannelStatus} (h : Written info info' i status) (j : ℕ) :
    info'.keyStatus j = if j = i then status else info.keyStatus j := by
  unfold ChannelInfo.keyStatus
  rw [h j]
  split_ifs with hj hst
  · rw [hst]
    rfl
  · rfl
  · rfl

theorem Written.allDisabled_iff {status : ChannelStatus} (h : Written info info' i status)
    (hi : i < n) : info'.AllDisabled n ↔
      status ≠ .enabled ∧ ∀ j < n, j ≠ i → info.keyStatus j ≠ .enabled := by
  simp only [ChannelInfo.AllDisabled, h.keyStatus]
  constructor
  · intro hall
    refine ⟨by simpa using hall i hi, fun j hj hne => ?_⟩
    simpa [hne] using hall j hj
  · rintro ⟨hst, hothers⟩ j hj
    split_ifs with hji
    · exact hst
    · exact hothers j hj hji

theorem Written.sets_iff (hkey : c.usingKey ∈ keys)
    (h : Written info info' (keys.idxOf c.usingKey) c.status) : Sets keys c info info' ↔
      ∀ j, keys[j]? = some c.usingKey → j ≠ keys.idxOf c.usingKey →
        info.keyStatus j = c.status := by
  have hget : keys[keys.idxOf c.usingKey]? = some c.usingKey := by
    rw [getElem?_eq_getElem (idxOf_lt_length_of_mem hkey), getElem_idxOf]
  constructor
  · intro hsets j hj hne
    have := hsets j _ hj
    rwa [h.keyStatus, if_neg hne, if_pos rfl] at this
  · intro hdup j k hj
    rw [h.keyStatus]
    by_cases hji : j = keys.idxOf c.usingKey
    · rw [hji, hget, Option.some.injEq] at hj
      rw [if_pos hji, if_pos hj.symm]
    · rw [if_neg hji]
      split_ifs with hk
      · rw [hk] at hj
        exact hdup j hj hji
      · rfl

theorem coherent_iff (h : Paired unmarshalRaw id keys s row ch) {row' ch' : Channel}
    (hrow' : (call unmarshalRaw id s c).channels.find id = some row')
    (hch' : (call unmarshalRaw id s c).channelsIDM.find id = some ch') :
    Coherent id keys s (call unmarshalRaw id s c) c ↔
      Sets keys c row.channelInfo row'.channelInfo ∧ Sets keys c ch.channelInfo ch'.channelInfo ∧
      (∀ i, ch'.channelInfo.multiKeyStatusList.lookup i =
        row'.channelInfo.multiKeyStatusList.lookup i) ∧
      row'.status = row'.channelInfo.channelStatus keys.length ∧
      ch'.status = ch'.channelInfo.channelStatus keys.length := by
  simp only [Coherent, h.stored, h.cached, hrow', hch', Option.some.injEq]
  constructor
  · rintro ⟨_, _, _, _, rfl, rfl, rfl, rfl, hall⟩
    exact hall
  · intro hall
    exact ⟨_, _, _, _, rfl, rfl, rfl, rfl, hall⟩

theorem channelStatus_congr (h : ∀ j, info.multiKeyStatusList.lookup j =
    info'.multiKeyStatusList.lookup j) (n : ℕ) :
    info.channelStatus n = info'.channelStatus n := by
  refine if_congr ?_ rfl rfl
  simp [ChannelInfo.AllDisabled, ChannelInfo.keyStatus, h]

theorem exhausts_of_allDisabled (hrow : HasKeys unmarshalRaw keys row) (hkey : c.usingKey ∈ keys)
    (h : (handlerMultiKeyUpdate unmarshalRaw row c.usingKey c.status c.reason
      c.now).channelInfo.AllDisabled keys.length) :
    exhausts unmarshalRaw row c.usingKey c.status = true := by
  have hne := ne_nil_of_mem hkey
  obtain ⟨hinfo, -, -⟩ := handler_keys hrow hne c
  have hle := h.le_length
  rw [hinfo, updateKeyStatus_length] at hle
  simpa [exhausts, hrow.keys_eq, hne, hrow.size] using hle

section
variable (h : Paired unmarshalRaw id keys s row ch)
include h

theorem keyStatus_paired (j : ℕ) : ch.channelInfo.keyStatus j = row.channelInfo.keyStatus j := by
  rw [ChannelInfo.keyStatus, h.statuses, ChannelInfo.keyStatus]

theorem coherent_same_iff (hkey : c.usingKey ∈ keys) (hsame : row.status = c.status) :
    Coherent id keys s (call unmarshalRaw id s c) c ↔ Takes unmarshalRaw keys row c := by
  obtain ⟨-, hch', hrow'⟩ := find_call h c
  rw [if_pos hsame] at hrow'
  rw [coherent_iff h hrow' hch']
  obtain ⟨-, hwritten, hstatus⟩ := handler_spec h hkey (.inr rfl)
  have hi := idxOf_lt_length_of_mem hkey
  have hexh := fun hall => @exhausts_of_allDisabled _ _ ch c h.cached_keys hkey hall
  rw [exhausts_congr h] at hexh
  generalize handlerMultiKeyUpdate unmarshalRaw ch c.usingKey c.status c.reason c.now = ch'
    at hwritten hstatus hexh
  have hcached : Written ch.channelInfo ch'.channelInfo (keys.idxOf c.usingKey) c.status := by
    intro j
    rw [hwritten, h.statuses]
  have hall := Written.allDisabled_iff hwritten hi
  have hsets := Written.sets_iff hkey hcached
  simp only [keyStatus_paired h] at hsets
  constructor
  · rintro ⟨-, hset, hmaps, hrst, hcst⟩
    have hentry := hmaps (keys.idxOf c.usingKey)
    rw [hwritten, if_pos rfl] at hentry
    refine ⟨hsets.1 hset, ?_⟩
    split_ifs with hen
    · rw [if_pos hen] at hentry
      refine ⟨hsame.trans hen, hentry.symm, ?_⟩
      rw [← Bool.not_eq_true]
      intro hex
      rw [hen] at hstatus hall
      rw [hstatus, if_pos hex, ChannelInfo.channelStatus, if_neg (by simp [hall])] at hcst
      cases hcst
    · rw [if_neg hen] at hentry
      rw [hsame, ChannelInfo.channelStatus] at hrst
      split_ifs at hrst with hdis
      · exact ⟨hrst, hentry.symm, hdis⟩
      · exact absurd hrst hen
  · rintro ⟨hdup, hcase⟩
    have hentry : row.channelInfo.multiKeyStatusList.lookup (keys.idxOf c.usingKey) =
        if c.status = .enabled then none else some c.status := by
      split_ifs at hcase ⊢
      · exact hcase.2.1
      · exact hcase.2.1
    have hself : Written row.channelInfo row.channelInfo (keys.idxOf c.usingKey) c.status := by
      intro j
      split_ifs with hj hen
      · rw [hj, hentry, if_pos hen]
      · rw [hj, hentry, if_neg hen]
      · rfl
    have hmaps : ∀ j, ch'.channelInfo.multiKeyStatusList.lookup j =
        row.channelInfo.multiKeyStatusList.lookup j := by
      intro j
      rw [hwritten, ← hself]
    refine ⟨(Written.sets_iff hkey hself).2 hdup, hsets.2 hdup, hmaps, ?_⟩
    rw [channelStatus_congr hmaps, ChannelInfo.channelStatus, hstatus]
    have hrow := Written.allDisabled_iff hself hi
    split_ifs at hcase with hen
    · have hnot : ¬ row.channelInfo.AllDisabled keys.length := by simp [hrow, hen]
      rw [if_neg hnot, hen, hcase.2.2]
      exact ⟨hcase.1, hcase.1⟩
    · have hex := hexh (hall.2 (hrow.1 hcase.2.2))
      rw [if_pos hcase.2.2, hex]
      exact ⟨hsame.trans hcase.1, rfl⟩

theorem coherent_other_iff (hkey : c.usingKey ∈ keys) (hother : row.status ≠ c.status) :
    Coherent id keys s (call unmarshalRaw id s c) c ↔ Takes unmarshalRaw keys row c := by
  obtain ⟨-, hch', hrow'⟩ := find_call h c
  rw [if_neg hother] at hrow'
  rw [coherent_iff h hrow' hch']
  obtain ⟨-, hwritten, hstatus⟩ := handler_spec h hkey (.inr rfl)
  obtain ⟨-, hwritten', hstatus'⟩ := handler_spec h hkey (.inl rfl)
  have hi := idxOf_lt_length_of_mem hkey
  have hexh := fun hall => @exhausts_of_allDisabled _ _ row c h.row_keys hkey hall
  generalize handlerMultiKeyUpdate unmarshalRaw ch c.usingKey c.status c.reason c.now = ch'
    at hwritten hstatus
  generalize handlerMultiKeyUpdate unmarshalRaw row c.usingKey c.status c.reason c.now = row'
    at hwritten' hstatus' hexh
  have hcached : Written ch.channelInfo ch'.channelInfo (keys.idxOf c.usingKey) c.status := by
    intro j
    rw [hwritten, h.statuses]
  have hmaps : ∀ j, ch'.channelInfo.multiKeyStatusList.lookup j =
      row'.channelInfo.multiKeyStatusList.lookup j := by
    intro j
    rw [hwritten, hwritten']
  have hall := Written.allDisabled_iff hwritten' hi
  have hsets := Written.sets_iff hkey hcached
  simp only [keyStatus_paired h] at hsets
  rw [Written.sets_iff hkey hwritten', hsets, channelStatus_congr hmaps, hstatus, hstatus']
  simp only [Takes, if_neg hother, and_self_left, hmaps, implies_true, true_and, and_self]
  refine and_congr_right fun _ => ?_
  rw [ChannelInfo.channelStatus]
  by_cases hen : c.status = .enabled
  · have hnot : ¬ row'.channelInfo.AllDisabled keys.length := by simp [hall, hen]
    rw [if_neg hnot, if_pos hen]
    refine iff_of_false ?_ fun htakes => hother (htakes.1.trans hen.symm)
    split_ifs
    · simp
    · rwa [hen] at hother
  · rw [if_neg hen]
    by_cases hothers : ∀ j < keys.length, j ≠ keys.idxOf c.usingKey →
        row.channelInfo.keyStatus j ≠ .enabled
    · have hdis := hall.2 ⟨hen, hothers⟩
      rw [if_pos hdis, if_pos (hexh hdis)]
      exact iff_of_true rfl (.inl hothers)
    · rw [if_neg fun hdis => hothers (hall.1 hdis).2, or_iff_right hothers]
      split_ifs with hex
      · simp [hex]
      · simp [hex]

theorem coherent_call_iff (hkey : c.usingKey ∈ keys) :
    Coherent id keys s (call unmarshalRaw id s c) c ↔ Takes unmarshalRaw keys row c := by
  by_cases hsame : row.status = c.status
  · exact coherent_same_iff h hkey hsame
  · exact coherent_other_iff h hkey hsame

end

theorem Paired.call (h : Paired unmarshalRaw id keys s row ch) (hkey : c.usingKey ∈ keys)
    (hcoherent : Coherent id keys s (call unmarshalRaw id s c) c) :
    ∃ row' ch', Paired unmarshalRaw id keys (call unmarshalRaw id s c) row' ch' := by
  obtain ⟨hon, hch', hrow'⟩ := find_call h c
  rw [coherent_iff h hrow' hch'] at hcoherent
  obtain ⟨-, -, hmaps, hrst, hcst⟩ := hcoherent
  have hkeys : HasKeys unmarshalRaw keys (if row.status = c.status then row else
      handlerMultiKeyUpdate unmarshalRaw row c.usingKey c.status c.reason c.now) := by
    split_ifs
    · exact h.row_keys
    · exact (handler_spec h hkey (.inl rfl)).1
  exact ⟨_, _, hon, hrow', hch', hkeys, (handler_spec h hkey (.inr rfl)).1, hmaps, by
    rw [hcst, hrst, channelStatus_congr hmaps]⟩

end OneCall

/-- From equal copies of a channel, every call sets the key it names in both and the channel's
status in line, exactly when every call finds the row as it needs it. -/
theorem multi_key_coherent_iff {s : ChannelStore} {row ch : Channel}
    (h : Paired unmarshalRaw id keys s row ch) {calls : List KeyCall}
    (hcalls : ∀ c ∈ calls, c.usingKey ∈ keys) :
    Along (call unmarshalRaw id) (fun s c => Coherent id keys s (call unmarshalRaw id s c) c) s
        calls ↔
      Along (call unmarshalRaw id) (fun s c => ∃ row, s.channels.find id = some row ∧
        Takes unmarshalRaw keys row c) s calls := by
  induction calls generalizing s row ch with
  | nil => exact Iff.rfl
  | cons c _ ih =>
    have hkey := hcalls c mem_cons_self
    have htakes : (∃ row, s.channels.find id = some row ∧ Takes unmarshalRaw keys row c) ↔
        Takes unmarshalRaw keys row c := by
      rw [h.stored]
      constructor
      · rintro ⟨r, hr, ht⟩
        rw [Option.some.injEq] at hr
        rwa [hr]
      · intro ht
        exact ⟨row, rfl, ht⟩
    simp only [Along]
    rw [htakes, coherent_call_iff h hkey]
    refine and_congr_right fun ht => ?_
    obtain ⟨row', ch', hpaired⟩ := h.call hkey ((coherent_call_iff h hkey).2 ht)
    exact ih hpaired fun d hd => hcalls d (mem_cons_of_mem _ hd)

def sampleKeys : Channel :=
  { id := 1, key := "a\nb", channelInfo := { isMultiKey := true, multiKeySize := 2 } }

def samplePair : ChannelStore :=
  { channels := ⟨[sampleKeys], nodup_singleton _⟩
    abilities := []
    channelsIDM := ⟨[{ sampleKeys with keys := ["a", "b"] }], nodup_singleton _⟩ }

theorem samplePair_paired : Paired (fun _ => none) 1 ["a", "b"] samplePair sampleKeys
    { sampleKeys with keys := ["a", "b"] } where
  on := rfl
  stored := rfl
  cached := rfl
  row_keys := ⟨rfl, by decide, rfl⟩
  cached_keys := ⟨rfl, by decide, rfl⟩
  statuses := fun _ => rfl
  status := rfl

theorem multi_key_coherent_iff_sample : Paired (fun _ => none) 1 ["a", "b"] samplePair sampleKeys
      { sampleKeys with keys := ["a", "b"] } ∧
    (Along (call (fun _ => none) 1)
        (fun s c => Coherent 1 ["a", "b"] s (call (fun _ => none) 1 s c) c) samplePair
        [⟨"a", .autoDisabled, "", 0⟩, ⟨"b", .autoDisabled, "", 1⟩] ↔
      Along (call (fun _ => none) 1) (fun s c => ∃ row, s.channels.find 1 = some row ∧
        Takes (fun _ => none) ["a", "b"] row c) samplePair
        [⟨"a", .autoDisabled, "", 0⟩, ⟨"b", .autoDisabled, "", 1⟩]) :=
  ⟨samplePair_paired, multi_key_coherent_iff samplePair_paired (by simp)⟩

def readPair (s : ChannelStore) : Option (ChannelStatus × List ChannelStatus) ×
    Option (ChannelStatus × List ChannelStatus) :=
  let read (ch : Channel) := (ch.status, [ch.channelInfo.keyStatus 0, ch.channelInfo.keyStatus 1])
  ((s.channels.find 1).map read, (s.channelsIDM.find 1).map read)

/-- A key that is disabled and enabled again stays disabled in the row. -/
theorem multi_key_incoherent : readPair (run (call (fun _ => none) 1) samplePair
      [⟨"a", .autoDisabled, "", 0⟩, ⟨"a", .enabled, "", 1⟩]) =
      (some (.enabled, [.autoDisabled, .enabled]), some (.enabled, [.enabled, .enabled])) ∧
    readPair (run (call (fun _ => none) 1) samplePair
      [⟨"a", .autoDisabled, "", 0⟩, ⟨"b", .autoDisabled, "", 1⟩, ⟨"a", .enabled, "", 2⟩]) =
      (some (.autoDisabled, [.enabled, .autoDisabled]),
        some (.autoDisabled, [.enabled, .autoDisabled])) ∧
    readPair (run (call (fun _ => none) 1) samplePair
      [⟨"a", .autoDisabled, "", 0⟩, ⟨"b", .autoDisabled, "", 1⟩, ⟨"a", .enabled, "", 2⟩,
        ⟨"a", .autoDisabled, "", 3⟩]) =
      (some (.autoDisabled, [.enabled, .autoDisabled]),
        some (.autoDisabled, [.autoDisabled, .autoDisabled])) := by
  decide

end ChannelStore

end AggreApi
