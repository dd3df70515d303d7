import AggreApi.KeyManagement
import AggreApi.Proofs.AbilityMirror
import AggreApi.Proofs.Text

/-!
# Statuses and the keys they belong to

What a key operation leaves in the row is the text it writes, read again by `GetKeys`, and the
statuses under the indices they had. The list written as lines comes back as it was exactly when it
is `Lined`.
-/

namespace AggreApi

open List ChannelInfo ChannelRow

variable {key k text : String} {ks keys : List String} {row : ChannelRow} {i : ℕ}

section Texts

variable (unmarshalRaw : String → Option (List String))

def parsedKeys (key : String) : List String := Channel.getKeys unmarshalRaw { id := 0, key }

def ArrayElements : Prop :=
  ∀ text parts, unmarshalRaw text = some parts →
    (parts.map String.length).sum + parts.length < text.length

/-- A JSON array without elements, which `Channel.Update` counts by its lines. -/
def EmptyArray (key : String) : Prop :=
  startsWith "[" (trimSpace key) = true ∧ unmarshalRaw (trimSpace key) = some []

structure Lined (ks : List String) : Prop where
  noBreak : ∀ k ∈ ks, '\n' ∉ k.toList
  ends : trimChar '\n' ("\n".intercalate ks) = "\n".intercalate ks
  notArray : startsWith "[" (trimSpace ("\n".intercalate ks)) = true →
    unmarshalRaw (trimSpace ("\n".intercalate ks)) = none

variable {unmarshalRaw}

theorem getKeys_eq_parsedKeys {ch : Channel} (h : ch.keys = []) :
    ch.getKeys unmarshalRaw = parsedKeys unmarshalRaw ch.key := by
  simp [parsedKeys, Channel.getKeys, h]

theorem parsedKeys_eq (h : key ≠ "") : parsedKeys unmarshalRaw key =
      if startsWith "[" (trimSpace key) then
        (unmarshalRaw (trimSpace key)).getD (splitChar '\n' (trimChar '\n' key))
      else splitChar '\n' (trimChar '\n' key) := by
  simp [parsedKeys, Channel.getKeys, h]

theorem parsedKeys_eq_nil (h : key ≠ "") :
    parsedKeys unmarshalRaw key = [] ↔ EmptyArray unmarshalRaw key := by
  rw [parsedKeys_eq h, EmptyArray]
  have hlines := splitChar_ne_nil '\n' (trimChar '\n' key)
  split_ifs with hb
  · cases hraw : unmarshalRaw (trimSpace key) <;> simp [hb, hlines]
  · simp [hb, hlines]

theorem length_countedKeys_iff (key : String) :
    (countedKeys unmarshalRaw key).length = (parsedKeys unmarshalRaw key).length ↔
      ¬ EmptyArray unmarshalRaw key := by
  by_cases hkey : key = ""
  · subst hkey
    have hb : startsWith "[" (trimSpace "") = false := by decide
    simp [countedKeys, parsedKeys, Channel.getKeys, EmptyArray, hb]
  · have hlines := splitChar_ne_nil '\n' (trimChar '\n' key)
    rw [countedKeys, if_neg hkey, parsedKeys_eq hkey, EmptyArray]
    by_cases hb : startsWith "[" (trimSpace key) = true
    · rcases hraw : unmarshalRaw (trimSpace key) with _ | parts
      · simp [hb, hraw]
      · by_cases hparts : parts = []
        · simp [hb, hraw, hparts, hlines]
        · simp [hb, hraw, hparts]
    · simp [hb]

theorem parsedKeys_intercalate_iff (hjson : ArrayElements unmarshalRaw)
    (hne : ks ≠ []) (htext : "\n".intercalate ks ≠ "") :
    parsedKeys unmarshalRaw ("\n".intercalate ks) = ks ↔ Lined unmarshalRaw ks := by
  have hlen := length_intercalate_lines hne
  have htrim := length_trimSpace_le ("\n".intercalate ks)
  rw [parsedKeys_eq htext]
  constructor
  · intro h
    have hlined : startsWith "[" (trimSpace ("\n".intercalate ks)) = true →
        unmarshalRaw (trimSpace ("\n".intercalate ks)) = none := by
      intro hb
      rw [if_pos hb] at h
      rcases hraw : unmarshalRaw (trimSpace ("\n".intercalate ks)) with _ | parts
      · rfl
      · rw [hraw, Option.getD_some] at h
        have hlt := hjson _ _ hraw
        rw [h] at hlt
        omega
    have hsplit : splitChar '\n' (trimChar '\n' ("\n".intercalate ks)) = ks := by
      split_ifs at h with hb
      · rw [hlined hb, Option.getD_none] at h
        exact h
      · exact h
    refine ⟨fun k hk => ?_, ?_, hlined⟩
    · rw [← hsplit] at hk
      exact notMem_of_mem_splitChar hk
    · have hjoin := intercalate_splitChar (trimChar '\n' ("\n".intercalate ks))
      rw [hsplit] at hjoin
      exact hjoin.symm
  · rintro ⟨hbreak, hends, harray⟩
    rw [hends, splitChar_intercalate hne hbreak]
    split_ifs with hb
    · rw [harray hb]
      rfl
    · rfl

theorem eq_of_intercalate_eq_empty (hne : ks ≠ []) (h : "\n".intercalate ks = "") : ks = [""] := by
  have hlen := length_intercalate_lines hne
  have hpos := length_pos_iff.2 hne
  rw [h, String.length_empty] at hlen
  obtain ⟨k, rfl⟩ := length_eq_one_iff.1 (show ks.length = 1 by omega)
  simpa using h

variable (unmarshalRaw)

/-- Keys that come back after they were written as lines over the ones in the row. -/
def Rewrites (keys ks : List String) : Prop :=
  ks ≠ [] ∧ if ks = [""] then keys = [""] else Lined unmarshalRaw ks

variable {unmarshalRaw}

theorem rewrites_iff (hjson : ArrayElements unmarshalRaw) {old : String} (hold : old ≠ "")
    (hkey : (if "\n".intercalate ks = "" then old else "\n".intercalate ks) = key) :
    parsedKeys unmarshalRaw key = ks ∧ ¬ EmptyArray unmarshalRaw key ↔
      Rewrites unmarshalRaw (parsedKeys unmarshalRaw old) ks := by
  by_cases hne : ks = []
  · subst hne
    have htext : "\n".intercalate [] = "" := rfl
    rw [if_pos htext] at hkey
    subst hkey
    rw [parsedKeys_eq_nil hold]
    simp [Rewrites]
  by_cases htext : "\n".intercalate ks = ""
  · rw [if_pos htext] at hkey
    subst hkey
    have hks := eq_of_intercalate_eq_empty hne htext
    subst hks
    simp only [Rewrites, ne_eq, hne, not_false_eq_true, if_true, true_and,
      ← parsedKeys_eq_nil hold]
    exact ⟨fun h => h.1, fun h => ⟨h, by simp [h]⟩⟩
  · rw [if_neg htext] at hkey
    subst hkey
    have hks : ks ≠ [""] := by
      rintro rfl
      exact htext rfl
    rw [← parsedKeys_eq_nil htext, parsedKeys_intercalate_iff hjson hne htext, Rewrites,
      if_neg hks]
    refine ⟨fun h => ⟨hne, h.1⟩, fun h => ⟨h.2, ?_⟩⟩
    rw [(parsedKeys_intercalate_iff hjson hne htext).2 h.2]
    exact hne

end Texts

namespace ChannelInfo

theorem lookup_foldl_erase (size j : ℕ) : ∀ (ks : List ℕ) (m : AList fun _ : ℕ => ChannelStatus),
    (ks.foldl (fun m i => if size ≤ i then m.erase i else m) m).lookup j =
      if size ≤ j ∧ j ∈ ks then none else m.lookup j
  | [], m => by simp
  | k :: ks, m => by
    rw [foldl_cons, lookup_foldl_erase size j ks]
    by_cases hj : size ≤ j
    · by_cases hk : j = k
      · subst hk
        simp [hj, AList.lookup_erase]
      · have herase : (if size ≤ k then m.erase k else m).lookup j = m.lookup j := by
          split_ifs
          · exact AList.lookup_erase_ne hk
          · rfl
        simp [hk, herase]
    · have herase : (if size ≤ k then m.erase k else m).lookup j = m.lookup j := by
        split_ifs with hk
        · exact AList.lookup_erase_ne (by omega)
        · rfl
      simp [hj, herase]

theorem keyStatus_resize (info : ChannelInfo) (n i : ℕ) :
    (info.resize n).keyStatus i = if i < n then info.keyStatus i else .enabled := by
  rw [keyStatus, resize, lookup_foldl_erase, keyStatus]
  by_cases hi : i < n
  · rw [if_pos hi, if_neg (by omega)]
  · rw [if_neg hi]
    by_cases hmem : i ∈ info.multiKeyStatusList.keys
    · rw [if_pos ⟨by omega, hmem⟩]
      rfl
    · rw [if_neg (by simp [hmem]), AList.lookup_eq_none.2 (by rwa [AList.mem_keys])]
      rfl

end ChannelInfo

namespace ChannelRow

variable (unmarshalRaw : String → Option (List String))

/-- The row has the keys it should have, each with its status, and counts them right. -/
structure Holds (row : ChannelRow) (intended : List String) (target : String → ChannelStatus) :
    Prop where
  keys : row.getKeys unmarshalRaw = intended
  statuses : ∀ i k, intended[i]? = some k → row.channelInfo.keyStatus i = target k
  size : row.channelInfo.multiKeySize = intended.length

def statusOf (row : ChannelRow) (k : String) : ChannelStatus :=
  if k ∈ row.getKeys unmarshalRaw then
    row.channelInfo.keyStatus ((row.getKeys unmarshalRaw).idxOf k)
  else .enabled

variable {unmarshalRaw}

theorem statusOf_of_getElem? (hnodup : (row.getKeys unmarshalRaw).Nodup)
    (h : (row.getKeys unmarshalRaw)[i]? = some k) :
    row.statusOf unmarshalRaw k = row.channelInfo.keyStatus i := by
  obtain ⟨hi, rfl⟩ := List.getElem?_eq_some_iff.1 h
  rw [statusOf, if_pos (getElem_mem hi), hnodup.idxOf_getElem]

theorem statusOf_of_notMem (h : k ∉ row.getKeys unmarshalRaw) :
    row.statusOf unmarshalRaw k = .enabled := if_neg h

theorem holds_updates_iff (hkeys : row.keys = []) {p : ChannelPatch}
    (hmulti : p.channelInfo.isMultiKey = true)
    (hkey : (if p.key = "" then row.key else p.key) = key) {intended : List String}
    {target : String → ChannelStatus} :
    (row.updates (p.recount unmarshalRaw (some row))).Holds unmarshalRaw intended target ↔
      parsedKeys unmarshalRaw key = intended ∧ ¬ EmptyArray unmarshalRaw key ∧
        ∀ i k, intended[i]? = some k → p.channelInfo.keyStatus i = target k := by
  have hcount : p.recount unmarshalRaw (some row) =
      { p with channelInfo :=
          p.channelInfo.resize (countedKeys unmarshalRaw key).length } := by
    have hstr : (if p.key ≠ "" then p.key else row.key) = key := by
      rw [← hkey, ite_not]
    simp [ChannelPatch.recount, hmulti, hstr]
  have hzero : (p.channelInfo.resize (countedKeys unmarshalRaw key).length).isZero = false := by
    simp [isZero, resize, hmulti]
  have hget : (row.updates (p.recount unmarshalRaw (some row))).getKeys unmarshalRaw =
      parsedKeys unmarshalRaw key := by
    refine (getKeys_eq_parsedKeys ?_).trans ?_
    · exact hkeys
    · rw [← hkey, hcount]
      rfl
  have hinfo : (row.updates (p.recount unmarshalRaw (some row))).channelInfo =
      p.channelInfo.resize (countedKeys unmarshalRaw key).length := by
    rw [hcount]
    exact if_neg (by simp [hzero])
  rw [← length_countedKeys_iff]
  constructor
  · rintro ⟨h1, h2, h3⟩
    rw [hget] at h1
    rw [hinfo] at h2 h3
    have hlen : (countedKeys unmarshalRaw key).length = intended.length := h3
    refine ⟨h1, by rw [hlen, h1], fun i k hk => ?_⟩
    rw [← h2 i k hk, keyStatus_resize, if_pos]
    rw [hlen]
    exact (List.getElem?_eq_some_iff.1 hk).1
  · rintro ⟨h1, h2, h3⟩
    rw [h1] at h2
    refine ⟨hget.trans h1, fun i k hk => ?_, ?_⟩
    · rw [hinfo, keyStatus_resize, if_pos, h3 i k hk]
      rw [h2]
      exact (List.getElem?_eq_some_iff.1 hk).1
    · rw [hinfo]
      exact h2

end ChannelRow

namespace ChannelInfo

theorem keyStatus_disableKey (info : ChannelInfo) (i j : ℕ) :
    (info.disableKey i).keyStatus j = if j = i then .manuallyDisabled else info.keyStatus j := by
  by_cases hj : j = i
  · subst hj
    simp [keyStatus, disableKey, AList.lookup_insert]
  · simp [keyStatus, disableKey, AList.lookup_insert_ne hj, hj]

theorem keyStatus_enableKey (info : ChannelInfo) (i j : ℕ) :
    (info.enableKey i).keyStatus j = if j = i then .enabled else info.keyStatus j := by
  by_cases hj : j = i
  · subst hj
    simp [keyStatus, enableKey, AList.lookup_erase]
  · simp [keyStatus, enableKey, AList.lookup_erase_ne hj, hj]

theorem disableKeys_isMultiKey : ∀ (is : List ℕ) (info : ChannelInfo),
    (disableKeys is info).1.isMultiKey = info.isMultiKey
  | [], info => rfl
  | i :: is, info => by
    rw [disableKeys]
    split
    · exact disableKeys_isMultiKey is _
    · exact disableKeys_isMultiKey is info

theorem keyStatus_disableKeys (j : ℕ) : ∀ (is : List ℕ) (info : ChannelInfo),
    (disableKeys is info).1.keyStatus j =
      if j ∈ is ∧ info.keyStatus j = .enabled then .manuallyDisabled else info.keyStatus j
  | [], info => by simp [disableKeys]
  | i :: is, info => by
    rw [disableKeys]
    split_ifs with hi hj hj
    · rw [keyStatus_disableKeys j is, keyStatus_disableKey]
      by_cases hji : j = i
      · simp [hji]
      · have hmem : j ∈ is := (mem_cons.1 hj.1).resolve_left hji
        simp [hji, hj.2, hmem]
    · rw [keyStatus_disableKeys j is, keyStatus_disableKey]
      have hji : j ≠ i := fun h => hj ⟨mem_cons.2 (.inl h), h ▸ hi⟩
      have hmem : ¬ (j ∈ is ∧ info.keyStatus j = .enabled) := fun h =>
        hj ⟨mem_cons_of_mem _ h.1, h.2⟩
      simp [hji, hmem]
    · have hji : j ≠ i := fun h => hi (h ▸ hj.2)
      have hmem : j ∈ is := (mem_cons.1 hj.1).resolve_left hji
      rw [keyStatus_disableKeys j is, if_pos ⟨hmem, hj.2⟩]
    · rw [keyStatus_disableKeys j is, if_neg]
      exact fun h => hj ⟨mem_cons_of_mem _ h.1, h.2⟩

variable (info : ChannelInfo) (keeps details : ℕ → Bool)

theorem lookup_copied {m : AList fun _ : ℕ => ChannelStatus} {statuses : List ChannelStatus}
    (h : ∀ j, (m.lookup j).getD .enabled = statuses[j]?.getD .enabled) (i j : ℕ) :
    ((if info.keyStatus i ≠ .enabled then
        copyEntry info.multiKeyStatusList m i statuses.length else m).lookup j).getD .enabled =
      (statuses ++ [info.keyStatus i])[j]?.getD .enabled := by
  by_cases hj : j = statuses.length
  · subst hj
    rw [getElem?_concat_length, Option.getD_some]
    rcases hlook : info.multiKeyStatusList.lookup i with _ | st
    · have hst : info.keyStatus i = .enabled := by
        rw [keyStatus, hlook]
        rfl
      rw [if_neg (not_not_intro hst), h, hst, getElem?_eq_none le_rfl]
      rfl
    · have hst : info.keyStatus i = st := by
        rw [keyStatus, hlook]
        rfl
      by_cases hne : st = .enabled
      · rw [if_neg (by simp [hst, hne]), h, hst, hne, getElem?_eq_none le_rfl]
        rfl
      · rw [if_pos (by rwa [hst]), copyEntry, hlook, AList.lookup_insert, hst]
        rfl
  · have hsame : (statuses ++ [info.keyStatus i])[j]?.getD .enabled =
        statuses[j]?.getD .enabled := by
      rcases lt_or_gt_of_ne hj with hlt | hgt
      · rw [getElem?_append_left hlt]
      · rw [getElem?_eq_none (by simp; omega), getElem?_eq_none hgt.le]
    rw [hsame, ← h]
    split_ifs with hst
    · rw [copyEntry]
      split
      · rw [AList.lookup_insert_ne hj]
      · rfl
    · rfl

theorem keepKeys_cons (hi : keeps i = true) (key : String) (l : List (String × ℕ))
    (kept : KeptKeys) :
    ∃ kept' : KeptKeys,
      info.keepKeys keeps details ((key, i) :: l) kept = info.keepKeys keeps details l kept' ∧
        kept'.keys = kept.keys ++ [key] ∧
        kept'.statusList =
          if info.keyStatus i ≠ .enabled then
            copyEntry info.multiKeyStatusList kept.statusList i kept.keys.length
          else kept.statusList :=
  ⟨_, by rw [keepKeys, if_pos hi], rfl, rfl⟩

theorem keepKeys_spec : ∀ (l : List (String × ℕ)) (kept : KeptKeys) (statuses : List ChannelStatus),
    statuses.length = kept.keys.length →
    (∀ j, (kept.statusList.lookup j).getD .enabled = statuses[j]?.getD .enabled) →
    (info.keepKeys keeps details l kept).keys =
        kept.keys ++ (l.filter fun k => keeps k.2).map Prod.fst ∧
      ∀ j, ((info.keepKeys keeps details l kept).statusList.lookup j).getD .enabled =
        (statuses ++ (l.filter fun k => keeps k.2).map fun k => info.keyStatus k.2)[j]?.getD
          .enabled
  | [], kept, statuses, _, h => by simpa [keepKeys] using h
  | (key, i) :: l, kept, statuses, hlen, h => by
    by_cases hi : keeps i = true
    · obtain ⟨kept', hstep, hkeys, hlist⟩ := info.keepKeys_cons keeps details hi key l kept
      obtain ⟨hk, hs⟩ := keepKeys_spec l kept' (statuses ++ [info.keyStatus i])
        (by simp [hkeys, hlen])
        (by
          intro j
          rw [hlist, ← hlen]
          exact info.lookup_copied h i j)
      rw [hstep]
      exact ⟨by simpa [hi, hkeys] using hk, by simpa [hi] using hs⟩
    · rw [keepKeys, if_neg hi]
      simpa [hi] using keepKeys_spec l kept statuses hlen h

theorem zipIdx_filter_eq (hnodup : keys.Nodup) : (keys.zipIdx.filter fun k => keeps k.2) =
      keys.zipIdx.filter fun k => keeps (keys.idxOf k.1) := by
  refine filter_congr fun k hk => ?_
  obtain ⟨hi, hk⟩ := List.getElem?_eq_some_iff.1 (List.mem_zipIdx_iff_getElem?.1 hk)
  rw [← hk, hnodup.idxOf_getElem]

theorem keepKeys_keys (hnodup : keys.Nodup) : (info.keepKeys keeps details keys.zipIdx {}).keys =
      keys.filter fun k => keeps (keys.idxOf k) := by
  have hspec := (info.keepKeys_spec keeps details keys.zipIdx {} [] rfl (by simp)).1
  rw [zipIdx_filter_eq keeps hnodup] at hspec
  have hmap : (keys.zipIdx.map Prod.fst).filter (fun k => keeps (keys.idxOf k)) =
      (keys.zipIdx.filter fun k => keeps (keys.idxOf k.1)).map Prod.fst := filter_map ..
  rw [zipIdx_map_fst] at hmap
  rw [hspec, hmap]
  rfl

theorem keyStatus_withKept (hnodup : keys.Nodup) {j : ℕ}
    (h : (info.keepKeys keeps details keys.zipIdx {}).keys[j]? = some k) :
    (info.withKept (info.keepKeys keeps details keys.zipIdx {})).keyStatus j =
      info.keyStatus (keys.idxOf k) := by
  obtain ⟨hkeys, hstatus⟩ := info.keepKeys_spec keeps details keys.zipIdx {} [] rfl (by simp)
  rw [hkeys, nil_append, getElem?_map, Option.map_eq_some_iff] at h
  obtain ⟨⟨k', i⟩, hentry, rfl⟩ := h
  have hmem := (mem_filter.1 (mem_of_getElem? hentry)).1
  obtain ⟨hi, hk⟩ := List.getElem?_eq_some_iff.1 (List.mem_zipIdx_iff_getElem?.1 hmem)
  have hj := hstatus j
  rw [nil_append, getElem?_map, hentry] at hj
  rw [keyStatus, withKept, hj, ← hk, hnodup.idxOf_getElem]
  rfl

end ChannelInfo

namespace KeyAction

variable (unmarshalRaw : String → Option (List String)) (row : ChannelRow)

def intended : KeyAction → List String
  | .deleteKey (some i) =>
    (row.getKeys unmarshalRaw).filter fun k => ((row.getKeys unmarshalRaw).idxOf k : ℤ) ≠ i
  | .deleteDisabledKeys =>
    (row.getKeys unmarshalRaw).filter fun k => row.statusOf unmarshalRaw k ≠ .autoDisabled
  | _ => row.getKeys unmarshalRaw

def target (action : KeyAction) (k : String) : ChannelStatus :=
  match action with
  | .disableKey (some i) =>
    if ((row.getKeys unmarshalRaw).idxOf k : ℤ) = i then .manuallyDisabled
    else row.statusOf unmarshalRaw k
  | .enableKey (some i) =>
    if ((row.getKeys unmarshalRaw).idxOf k : ℤ) = i then .enabled
    else row.statusOf unmarshalRaw k
  | .enableAllKeys => .enabled
  | .disableAllKeys =>
    if row.statusOf unmarshalRaw k = .enabled then .manuallyDisabled
    else row.statusOf unmarshalRaw k
  | _ => row.statusOf unmarshalRaw k

def Keeps : KeyAction → Prop
  | .deleteKey i =>
    Rewrites unmarshalRaw (row.getKeys unmarshalRaw) (intended unmarshalRaw row (.deleteKey i))
  | .deleteDisabledKeys =>
    Rewrites unmarshalRaw (row.getKeys unmarshalRaw)
      (intended unmarshalRaw row .deleteDisabledKeys)
  | .disableAllKeys =>
    ¬ EmptyArray unmarshalRaw row.key ∧
      ∀ i < (row.getKeys unmarshalRaw).length, row.channelInfo.multiKeySize ≤ i →
        row.channelInfo.keyStatus i ≠ .enabled
  | _ => ¬ EmptyArray unmarshalRaw row.key

variable {unmarshalRaw row}

theorem checkedIndex_ok {missing : String} {size : ℕ} {keyIndex : Option ℤ}
    (h : checkedIndex missing size keyIndex = .ok i) : keyIndex = some (i : ℤ) := by
  rcases keyIndex with _ | j
  · simp [checkedIndex] at h
  · simp only [checkedIndex] at h
    split_ifs at h with hj
    rw [Except.ok.injEq] at h
    rw [Option.some.injEq]
    omega

variable (hkeys : row.keys = []) (hkey : row.key ≠ "") (hnodup : (row.getKeys unmarshalRaw).Nodup)

include hkeys

theorem sameKey_iff (htext : (if row.key = "" then row.key else row.key) = text) {P : Prop} :
    parsedKeys unmarshalRaw text = row.getKeys unmarshalRaw ∧ ¬ EmptyArray unmarshalRaw text ∧ P ↔
      ¬ EmptyArray unmarshalRaw row.key ∧ P := by
  rw [ite_self] at htext
  rw [← htext, getKeys_eq_parsedKeys hkeys]
  simp

include hkey hnodup

theorem keptKeys_iff (hjson : ArrayElements unmarshalRaw) (keeps details : ℕ → Bool)
    (hks : ((row.getKeys unmarshalRaw).filter fun k =>
      keeps ((row.getKeys unmarshalRaw).idxOf k)) = ks)
    {kept : KeptKeys}
    (hkept : row.channelInfo.keepKeys keeps details (row.getKeys unmarshalRaw).zipIdx {} = kept)
    (htext : (if "\n".intercalate kept.keys = "" then row.key
      else "\n".intercalate kept.keys) = text) :
    parsedKeys unmarshalRaw text = ks ∧ ¬ EmptyArray unmarshalRaw text ∧
        (∀ i k, ks[i]? = some k →
          (row.channelInfo.withKept kept).keyStatus i = row.statusOf unmarshalRaw k) ↔
      Rewrites unmarshalRaw (row.getKeys unmarshalRaw) ks := by
  have hkeys' := row.channelInfo.keepKeys_keys keeps details hnodup
  rw [hkept, hks] at hkeys'
  rw [hkeys'] at htext
  rw [getKeys_eq_parsedKeys hkeys, ← rewrites_iff hjson hkey htext, ← and_assoc]
  refine and_iff_left fun j k hk => ?_
  have hmem := mem_of_getElem? hk
  rw [← hks, mem_filter] at hmem
  rw [← hkeys', ← hkept] at hk
  rw [← hkept, keyStatus_withKept _ _ _ hnodup hk, statusOf,
    if_pos hmem.1]

theorem apply_iff (hjson : ArrayElements unmarshalRaw) (hmulti : row.channelInfo.isMultiKey = true)
    {action : KeyAction} {info : ChannelInfo} {message : String} {data : Option ℕ}
    (h : action.apply unmarshalRaw row = .ok (key, info, message, data))
    (htext : (if key = "" then row.key else key) = text) :
    info.isMultiKey = true ∧
      (parsedKeys unmarshalRaw text = action.intended unmarshalRaw row ∧
        ¬ EmptyArray unmarshalRaw text ∧
        (∀ i k, (action.intended unmarshalRaw row)[i]? = some k →
          info.keyStatus i = action.target unmarshalRaw row k) ↔
      action.Keeps unmarshalRaw row) := by
  have hidx : ∀ {j : ℕ} {k : String}, (row.getKeys unmarshalRaw)[j]? = some k →
      (row.getKeys unmarshalRaw).idxOf k = j := by
    intro j k hk
    obtain ⟨hj, rfl⟩ := List.getElem?_eq_some_iff.1 hk
    exact hnodup.idxOf_getElem j hj
  cases action with
  | disableKey keyIndex =>
    rcases hi : checkedIndex "未指定要禁用的密钥索引" row.channelInfo.multiKeySize keyIndex with e | i
    · simp [apply, hi, bind, Except.bind] at h
    · obtain ⟨rfl, rfl, -⟩ : row.key = key ∧ row.channelInfo.disableKey i = info ∧ _ := by
        simpa [apply, hi, bind, Except.bind, pure, Except.pure] using h
      obtain rfl := checkedIndex_ok hi
      refine ⟨hmulti, (sameKey_iff hkeys htext).trans (and_iff_left ?_)⟩
      intro j k hk
      rw [keyStatus_disableKey, target, hidx hk,
        statusOf_of_getElem? hnodup hk]
      simp
  | enableKey keyIndex =>
    rcases hi : checkedIndex "未指定要启用的密钥索引" row.channelInfo.multiKeySize keyIndex with e | i
    · simp [apply, hi, bind, Except.bind] at h
    · obtain ⟨rfl, rfl, -⟩ : row.key = key ∧ row.channelInfo.enableKey i = info ∧ _ := by
        simpa [apply, hi, bind, Except.bind, pure, Except.pure] using h
      obtain rfl := checkedIndex_ok hi
      refine ⟨hmulti, (sameKey_iff hkeys htext).trans (and_iff_left ?_)⟩
      intro j k hk
      rw [keyStatus_enableKey, target, hidx hk,
        statusOf_of_getElem? hnodup hk]
      simp
  | enableAllKeys =>
    obtain ⟨rfl, rfl, -⟩ : row.key = key ∧ row.channelInfo.enableAllKeys = info ∧ _ := by
      simpa [apply] using h
    refine ⟨hmulti, (sameKey_iff hkeys htext).trans (and_iff_left ?_)⟩
    intro j k _
    rfl
  | disableAllKeys =>
    simp only [apply] at h
    split_ifs at h
    obtain ⟨rfl, rfl, -⟩ := by simpa using h
    refine ⟨(disableKeys_isMultiKey _ _).trans hmulti,
      (sameKey_iff hkeys htext).trans (and_congr_right fun _ => ?_)⟩
    simp only [keyStatus_disableKeys, mem_range]
    constructor
    · intro hall j hj hsize hen
      have hk := getElem?_eq_getElem hj
      have hst := hall j _ hk
      rw [if_neg (by omega), hen] at hst
      simp [target, statusOf_of_getElem? hnodup hk, hen] at hst
    · intro hall j k hk
      have hj := (List.getElem?_eq_some_iff.1 hk).1
      simp only [target, statusOf_of_getElem? hnodup hk]
      by_cases hen : row.channelInfo.keyStatus j = .enabled
      · have hsize : j < row.channelInfo.multiKeySize := by
          by_contra hsize
          exact hall j hj (by omega) hen
        simp [hen, hsize]
      · simp [hen]
  | deleteKey keyIndex =>
    rcases hi : checkedIndex "未指定要删除的密钥索引" row.channelInfo.multiKeySize keyIndex with e | i
    · simp [apply, hi, bind, Except.bind] at h
    · obtain rfl := checkedIndex_ok hi
      simp only [apply, hi, bind, Except.bind] at h
      split_ifs at h
      simp only [pure, Except.pure, Except.ok.injEq, Prod.mk.injEq] at h
      obtain ⟨rfl, rfl, -⟩ := h
      refine ⟨hmulti, keptKeys_iff hkeys hkey hnodup hjson _ _ ?_ rfl htext⟩
      simp [intended]
  | deleteDisabledKeys =>
    simp only [apply] at h
    split_ifs at h
    simp only [Except.ok.injEq, Prod.mk.injEq] at h
    obtain ⟨rfl, rfl, -⟩ := h
    refine ⟨hmulti, keptKeys_iff hkeys hkey hnodup hjson _ _ ?_ rfl htext⟩
    refine filter_congr fun k hk => ?_
    rw [statusOf, if_pos hk]
  | unsupported => simp [apply] at h

end KeyAction

/-- A text that looks like a JSON array and is none. -/
def BrokenArray (unmarshalRaw : String → Option (List String)) (key : String) : Prop :=
  startsWith "[" (trimSpace key) = true ∧ unmarshalRaw (trimSpace key) = none

instance (unmarshalRaw : String → Option (List String)) (key : String) :
    Decidable (BrokenArray unmarshalRaw key) :=
  inferInstanceAs (Decidable (_ ∧ _))

theorem existingKeys_eq {unmarshalRaw : String → Option (List String)} (h : key ≠ "") :
    existingKeys unmarshalRaw key =
      if BrokenArray unmarshalRaw key then [] else parsedKeys unmarshalRaw key := by
  rw [existingKeys, parsedKeys_eq h]
  by_cases hb : startsWith "[" (trimSpace key) = true
  · rcases hraw : unmarshalRaw (trimSpace key) with _ | parts
    · simp [BrokenArray, hb, hraw]
    · simp [BrokenArray, hb, hraw]
  · simp [BrokenArray, hb]

theorem mem_freshKeys : ∀ {keys seen : List String} {k : String}, k ∈ freshKeys seen keys →
    k ∉ seen ∧ k ≠ "" ∧ trimSpace k = k
  | [], _, _, h => by simp [freshKeys] at h
  | key :: keys, seen, k, h => by
    simp only [freshKeys] at h
    split_ifs at h with hold
    · exact mem_freshKeys h
    · rw [not_or] at hold
      rcases mem_cons.1 h with rfl | h
      · exact ⟨hold.2, hold.1, trimSpace_trimSpace key⟩
      · obtain ⟨hseen, hk⟩ := mem_freshKeys h
        exact ⟨fun hmem => hseen (mem_cons_of_mem _ hmem), hk⟩

theorem freshKeys_eq_nil (seen : List String) : ∀ {keys : List String}, freshKeys [] keys = [] →
    freshKeys seen keys = []
  | [], _ => rfl
  | key :: keys, h => by
    simp only [freshKeys, not_mem_nil, or_false] at h ⊢
    split_ifs at h with hblank
    rw [if_pos (.inl hblank)]
    exact freshKeys_eq_nil seen h

theorem notMem_of_mem_freshKeys {new : List String}
    (h : k ∈ freshKeys (keys.map trimSpace) new) : k ∉ keys := by
  obtain ⟨hseen, -, htrim⟩ := mem_freshKeys h
  intro hmem
  exact hseen (mem_map.2 ⟨k, hmem, htrim⟩)

inductive KeyOp where
  | manage (action : KeyAction)
  | append (request : PatchChannel)
  | replace (request : PatchChannel)

namespace KeyOp

/-- The operation as the handler of the request. -/
def exec (env : KeyEnv) (s : ChannelDb) (id : ℕ) : KeyOp → ChannelDb × KeyReply
  | .manage action => s.manageMultiKeys env id action
  | .append p => s.updateChannel env { p with id, keyMode := some "append" }
  | .replace p => s.updateChannel env { p with id, keyMode := some "replace" }

variable (env : KeyEnv) (row : ChannelRow)

def fresh (p : PatchChannel) : List String :=
  freshKeys ((row.getKeys env.unmarshalRaw).map trimSpace) ((p.newKeys env).toOption.getD [])

def intended : KeyOp → List String
  | .manage action => action.intended env.unmarshalRaw row
  | .append p => row.getKeys env.unmarshalRaw ++ fresh env row p
  | .replace p =>
    if p.key = "" then row.getKeys env.unmarshalRaw else parsedKeys env.unmarshalRaw p.key

def target (op : KeyOp) (k : String) : ChannelStatus :=
  match op with
  | .manage action => action.target env.unmarshalRaw row k
  | _ => row.statusOf env.unmarshalRaw k

def Keeps : KeyOp → Prop
  | .manage action => action.Keeps env.unmarshalRaw row
  | .append p =>
    (if BrokenArray env.unmarshalRaw row.key then
      freshKeys [] ((p.newKeys env).toOption.getD []) = [] ∨
        parsedKeys env.unmarshalRaw
          ("\n".intercalate (freshKeys [] ((p.newKeys env).toOption.getD []))) =
            intended env row (.append p)
    else Rewrites env.unmarshalRaw (row.getKeys env.unmarshalRaw) (intended env row (.append p))) ∧
      ∀ i, (row.getKeys env.unmarshalRaw).length ≤ i → i < (intended env row (.append p)).length →
        row.channelInfo.keyStatus i = .enabled
  | .replace p =>
    ¬ EmptyArray env.unmarshalRaw (if p.key = "" then row.key else p.key) ∧
      ∀ i k, (intended env row (.replace p))[i]? = some k →
        row.channelInfo.keyStatus i = row.statusOf env.unmarshalRaw k

variable {env row}

theorem append_statuses_iff (hnodup : (row.getKeys env.unmarshalRaw).Nodup) (p : PatchChannel) :
    (∀ i k, (intended env row (.append p))[i]? = some k →
        row.channelInfo.keyStatus i = row.statusOf env.unmarshalRaw k) ↔
      ∀ i, (row.getKeys env.unmarshalRaw).length ≤ i → i < (intended env row (.append p)).length →
        row.channelInfo.keyStatus i = .enabled := by
  have hfresh : ∀ {i : ℕ} {k : String}, (row.getKeys env.unmarshalRaw).length ≤ i →
      (intended env row (.append p))[i]? = some k → row.statusOf env.unmarshalRaw k = .enabled := by
    intro i k hi hk
    rw [intended, getElem?_append_right hi] at hk
    exact statusOf_of_notMem (notMem_of_mem_freshKeys (mem_of_getElem? hk))
  constructor
  · intro h i hi hlt
    have hk := getElem?_eq_getElem hlt
    rw [h i _ hk, hfresh hi hk]
  · intro h i k hk
    rcases lt_or_ge i (row.getKeys env.unmarshalRaw).length with hi | hi
    · rw [intended, getElem?_append_left hi] at hk
      exact (statusOf_of_getElem? hnodup hk).symm
    · rw [h i hi (List.getElem?_eq_some_iff.1 hk).1, hfresh hi hk]

theorem append_text_iff (hjson : ArrayElements env.unmarshalRaw) (hkeys : row.keys = [])
    (hkey : row.key ≠ "") {p : PatchChannel} {new : List String} (hnew : p.newKeys env = .ok new)
    (hks : existingKeys env.unmarshalRaw row.key ++
      freshKeys ((existingKeys env.unmarshalRaw row.key).map trimSpace) new = ks)
    (htext : (if "\n".intercalate ks = "" then row.key else "\n".intercalate ks) = text) :
    parsedKeys env.unmarshalRaw text = intended env row (.append p) ∧
        ¬ EmptyArray env.unmarshalRaw text ↔
      if BrokenArray env.unmarshalRaw row.key then
        freshKeys [] new = [] ∨
          parsedKeys env.unmarshalRaw ("\n".intercalate (freshKeys [] new)) =
            intended env row (.append p)
      else
        Rewrites env.unmarshalRaw (row.getKeys env.unmarshalRaw)
          (intended env row (.append p)) := by
  have hint : intended env row (.append p) = parsedKeys env.unmarshalRaw row.key ++
      freshKeys ((parsedKeys env.unmarshalRaw row.key).map trimSpace) new := by
    rw [intended, fresh, hnew, getKeys_eq_parsedKeys hkeys]
    rfl
  rw [existingKeys_eq hkey] at hks
  by_cases hbroken : BrokenArray env.unmarshalRaw row.key
  · rw [if_pos hbroken, map_nil, nil_append] at hks
    rw [if_pos hbroken, hks]
    have harray : ¬ EmptyArray env.unmarshalRaw row.key := by
      rintro ⟨-, hsome⟩
      rw [hbroken.2] at hsome
      cases hsome
    by_cases hnil : ks = []
    · have hrow : text = row.key := by
        rw [← htext, hnil]
        rfl
      rw [hint, hrow, freshKeys_eq_nil _ (hks.trans hnil), append_nil]
      simp [hnil, harray]
    · have hne : "\n".intercalate ks ≠ "" := by
        intro hempty
        have hmem : "" ∈ freshKeys [] new := by
          rw [hks, eq_of_intercalate_eq_empty hnil hempty]
          exact mem_singleton.2 rfl
        exact (mem_freshKeys hmem).2.1 rfl
      rw [if_neg hne] at htext
      rw [← htext, or_iff_right hnil]
      refine and_iff_left_of_imp fun h => ?_
      rw [← parsedKeys_eq_nil hne, h, hint, append_eq_nil_iff, parsedKeys_eq_nil hkey]
      exact fun hboth => harray hboth.1
  · rw [if_neg hbroken, ← hint] at hks
    rw [if_neg hbroken, hks, getKeys_eq_parsedKeys hkeys]
    exact rewrites_iff hjson hkey htext

theorem updateChannel_eq {s : ChannelDb} {p : PatchChannel} (hrow : s.channels.find p.id = some row)
    (hok : (s.updateChannel env p).2.success = true) :
    ∃ key info, info.isMultiKey = row.channelInfo.isMultiKey ∧
      (∀ i, info.keyStatus i = row.channelInfo.keyStatus i) ∧
      (if p.keyMode = some "append" ∧ row.channelInfo.isMultiKey = true then
        p.appendedKey env row.key else .ok p.key) = .ok key ∧
      (s.updateChannel env p).1 =
        s.update env.unmarshalRaw { p.toChannelPatch with key, channelInfo := info } := by
  simp only [ChannelDb.updateChannel] at hok ⊢
  rcases hvalid : env.validateChannel p.toChannelPatch with _ | e
  · simp only [hvalid, hrow] at hok ⊢
    split at hok
    · simp at hok
    · rename_i key hkey
      rw [hkey]
      refine ⟨key, _, ?_, ?_, rfl, rfl⟩
      · rfl
      · exact fun _ => rfl
  · simp [hvalid] at hok

/-- After a successful operation the row has the keys it should, each with its status, exactly when
the row and the request allow it. -/
theorem key_statuses_travel_iff (hjson : ArrayElements env.unmarshalRaw) {s : ChannelDb} {id : ℕ}
    (hrow : s.channels.find id = some row) (hmulti : row.channelInfo.isMultiKey = true)
    (hkeys : row.keys = []) (hkey : row.key ≠ "") (hnodup : (row.getKeys env.unmarshalRaw).Nodup)
    {op : KeyOp} (hok : (op.exec env s id).2.success = true) :
    ∃ row', (op.exec env s id).1.channels.find id = some row' ∧
      (row'.Holds env.unmarshalRaw (op.intended env row) (op.target env row) ↔
        op.Keeps env row) := by
  cases op with
  | manage action =>
    simp only [exec, ChannelDb.manageMultiKeys, hrow, hmulti, Bool.not_true, Bool.false_eq_true,
      if_false] at hok ⊢
    rcases happly : action.apply env.unmarshalRaw row with e | ⟨key, info, message, data⟩
    · simp [happly] at hok
    · obtain ⟨hinfo, hiff⟩ := KeyAction.apply_iff hkeys hkey hnodup hjson hmulti happly rfl
      obtain rfl := ChannelDb.id_of_find hrow
      refine ⟨_, ChannelDb.find_update env.unmarshalRaw hrow, ?_⟩
      rw [ChannelRow.holds_updates_iff hkeys hinfo rfl]
      exact hiff
  | append p =>
    obtain ⟨key, info, hinfo, hstatus, happ, hdb⟩ := updateChannel_eq hrow hok
    rw [if_pos ⟨rfl, hmulti⟩, PatchChannel.appendedKey, if_neg hkey] at happ
    split at happ
    · cases happ
    · rename_i new hnew
      rw [Except.ok.injEq] at happ
      subst happ
      have hnew' : p.newKeys env = .ok new := hnew
      have hstat := append_statuses_iff hnodup p
      simp only [← hstatus] at hstat
      refine ⟨_, (congrArg (·.channels.find id) hdb).trans
        (ChannelDb.find_update env.unmarshalRaw hrow), ?_⟩
      refine (ChannelRow.holds_updates_iff hkeys (hinfo.trans hmulti) rfl).trans ?_
      rw [Keeps, hnew']
      simp only [← hstatus]
      exact and_assoc.symm.trans
        (and_congr (append_text_iff hjson hkeys hkey hnew' rfl rfl) hstat)
  | replace p =>
    obtain ⟨key, info, hinfo, hstatus, happ, hdb⟩ := updateChannel_eq hrow hok
    rw [if_neg (by simp)] at happ
    cases happ
    refine ⟨_, (congrArg (·.channels.find id) hdb).trans
      (ChannelDb.find_update env.unmarshalRaw hrow), ?_⟩
    have hint : parsedKeys env.unmarshalRaw (if p.key = "" then row.key else p.key) =
        intended env row (.replace p) := by
      rw [intended, apply_ite (parsedKeys env.unmarshalRaw), getKeys_eq_parsedKeys hkeys]
    refine (ChannelRow.holds_updates_iff hkeys (hinfo.trans hmulti) rfl).trans ?_
    rw [Keeps]
    simp only [← hstatus]
    exact and_iff_right hint

def lineEnv : KeyEnv where
  unmarshalRaw _ := none
  unmarshalArray _ := .error ""
  marshal _ := ""
  validateChannel _ := none

def twoKeys (statuses : AList fun _ : ℕ => ChannelStatus) : ChannelRow :=
  { id := 1
    key := "a\nb"
    channelInfo := { isMultiKey := true, multiKeySize := 2, multiKeyStatusList := statuses } }

def twoKeysDb (statuses : AList fun _ : ℕ => ChannelStatus) : ChannelDb :=
  { ChannelDb.empty with channels := ⟨[twoKeys statuses], nodup_singleton _⟩ }

def firstDisabled : AList fun _ : ℕ => ChannelStatus := AList.singleton 0 .autoDisabled

def bothDisabled : AList fun _ : ℕ => ChannelStatus := firstDisabled.insert 1 .autoDisabled

theorem keeps_first : Keeps lineEnv (twoKeys firstDisabled) (.manage (.deleteKey (some 1))) := by
  have hint : (KeyAction.deleteKey (some 1)).intended lineEnv.unmarshalRaw
      (twoKeys firstDisabled) = ["a"] := by decide
  rw [Keeps, KeyAction.Keeps, hint]
  exact ⟨by decide, ⟨by decide, by decide, fun _ => rfl⟩⟩

/-- Deleting the second key leaves the first one, disabled as it was. -/
theorem key_statuses_travel_sample : ∃ row', (exec lineEnv (twoKeysDb firstDisabled) 1
        (.manage (.deleteKey (some 1)))).1.channels.find 1 = some row' ∧
      row'.Holds lineEnv.unmarshalRaw
        (intended lineEnv (twoKeys firstDisabled) (.manage (.deleteKey (some 1))))
        (target lineEnv (twoKeys firstDisabled) (.manage (.deleteKey (some 1)))) := by
  have hjson : ArrayElements lineEnv.unmarshalRaw := fun _ _ h => absurd h (by simp [lineEnv])
  have hfind : (twoKeysDb firstDisabled).channels.find 1 = some (twoKeys firstDisabled) := rfl
  obtain ⟨row', hrow', hiff⟩ := key_statuses_travel_iff hjson hfind rfl rfl (by decide)
    (by decide) (show (exec lineEnv (twoKeysDb firstDisabled) 1
      (.manage (.deleteKey (some 1)))).2.success = true by decide)
  exact ⟨row', hrow', hiff.2 keeps_first⟩

/-- Deleting the disabled keys, where all are, brings them back enabled. -/
theorem key_statuses_lost :
    (exec lineEnv (twoKeysDb bothDisabled) 1 (.manage .deleteDisabledKeys)).2.success = true ∧
      ((exec lineEnv (twoKeysDb bothDisabled) 1
          (.manage .deleteDisabledKeys)).1.channels.find 1).map (fun row =>
        (row.getKeys lineEnv.unmarshalRaw, row.channelInfo.keyStatus 0)) =
          some (["a", "b"], .enabled) ∧
      intended lineEnv (twoKeys bothDisabled) (.manage .deleteDisabledKeys) = [] ∧
      (exec lineEnv (twoKeysDb firstDisabled) 1
        (.replace { id := 1, key := "b\na" })).2.success = true ∧
      ((exec lineEnv (twoKeysDb firstDisabled) 1
          (.replace { id := 1, key := "b\na" })).1.channels.find 1).map (fun row =>
        (row.getKeys lineEnv.unmarshalRaw, row.channelInfo.keyStatus 0)) =
          some (["b", "a"], .autoDisabled) ∧
      target lineEnv (twoKeys firstDisabled) (.replace { id := 1, key := "b\na" }) "b" =
        .enabled := by
  decide

end KeyOp

end AggreApi
