import AggreApi.ChannelTables
import AggreApi.Proofs.ChannelCache

/-!
# Abilities mirror channels

An operation either rewrites the abilities of the channels it touches from their rows
(`mirrors_of_rebuild`), or rewrites rows and abilities alike (`mirrors_of_map`). Five operations do
neither in some states, and an insert can drop a pair where a name has a bar in it.
-/

namespace AggreApi

open List ChannelRow ChannelStore

variable {c : ChannelRow} {a : AbilityRow} {s s' : ChannelDb} {cs : List ChannelRow}

variable {α : Type*}

theorem toChunks_go_flatten (n : ℕ) : ∀ (xs : List α) (acc : Array α)
    (accs : Array (List α)),
    (toChunks.go n xs acc accs).flatten = accs.toList.flatten ++ acc.toList ++ xs
  | [], acc, accs => by simp [toChunks.go]
  | x :: xs, acc, accs => by
    rw [toChunks.go]
    split
    · rw [toChunks_go_flatten n xs]
      simp
    · rw [toChunks_go_flatten n xs]
      simp

theorem toChunks_flatten : ∀ (n : ℕ) (xs : List α), (xs.toChunks n).flatten = xs
  | _, [] => by simp [toChunks]
  | 0, x :: xs => by simp [toChunks]
  | n + 1, x :: xs => by simp [toChunks, toChunks_go_flatten]

theorem splitChar_ne_nil (c : Char) (s : String) : splitChar c s ≠ [] := by
  simp [splitChar, splitOn_ne_nil]

namespace ChannelRow

variable {p : String × String}

theorem mem_pairs :
    p ∈ c.pairs ↔ p.1 ∈ splitChar ',' c.group ∧ p.2 ∈ splitChar ',' c.models := by
  rcases p with ⟨g, m⟩
  simp only [pairs, mem_flatMap, mem_map, Prod.mk.injEq]
  constructor
  · rintro ⟨m, hm, g, hg, rfl, rfl⟩
    exact ⟨hg, hm⟩
  · rintro ⟨hg, hm⟩
    exact ⟨m, hm, g, hg, rfl, rfl⟩

/-- No two pairs of the channel have the same key in `abilitySet`. -/
def Separated (c : ChannelRow) : Prop :=
  ∀ p ∈ c.pairs, ∀ q ∈ c.pairs, setKey p = setKey q → p = q

theorem mem_distinctPairs : ∀ {ps : List (String × String)}
    {seen : List String}, (∀ q ∈ ps, ∀ r ∈ ps, setKey q = setKey r → q = r) →
    (p ∈ distinctPairs seen ps ↔ p ∈ ps ∧ setKey p ∉ seen)
  | [], seen, _ => by simp [distinctPairs]
  | q :: ps, seen, h => by
    have hps : ∀ a ∈ ps, ∀ b ∈ ps, setKey a = setKey b → a = b := fun a ha b hb =>
      h a (mem_cons_of_mem _ ha) b (mem_cons_of_mem _ hb)
    rw [distinctPairs]
    split_ifs with hq
    · rw [mem_distinctPairs hps, mem_cons]
      refine ⟨fun hp => ⟨.inr hp.1, hp.2⟩, ?_⟩
      rintro ⟨rfl | hp, hseen⟩
      · exact absurd hq hseen
      · exact ⟨hp, hseen⟩
    · rw [mem_cons, mem_distinctPairs hps, mem_cons, mem_cons]
      constructor
      · rintro (rfl | ⟨hp, hseen⟩)
        · exact ⟨.inl rfl, hq⟩
        · exact ⟨.inr hp, fun hmem => hseen (.inr hmem)⟩
      · rintro ⟨rfl | hp, hseen⟩
        · exact .inl rfl
        · by_cases hkey : setKey p = setKey q
          · exact .inl (h p (mem_cons_of_mem _ hp) q mem_cons_self hkey)
          · exact .inr ⟨hp, fun hmem => hmem.elim hkey hseen⟩

def owns (c : ChannelRow) (a : AbilityRow) : Prop := ∃ p ∈ c.pairs, c.ability p = a

theorem mem_abilities (h : c.Separated) : a ∈ c.abilities ↔ c.owns a := by
  simp [abilities, mem_distinctPairs h, owns]

theorem channelId_of_mem (h : a ∈ c.abilities) : a.channelId = c.id := by
  obtain ⟨p, -, rfl⟩ := mem_map.1 h
  rfl

theorem channelId_of_owns (h : c.owns a) : a.channelId = c.id := by
  obtain ⟨p, -, rfl⟩ := h
  rfl

theorem eq_of_key {b : AbilityRow} (ha : a ∈ c.abilities)
    (hb : b ∈ c.abilities) (h : a.key = b.key) : a = b := by
  obtain ⟨p, -, rfl⟩ := mem_map.1 ha
  obtain ⟨q, -, rfl⟩ := mem_map.1 hb
  simp only [AbilityRow.key, ability, Prod.mk.injEq, and_true] at h
  rw [Prod.ext h.1 h.2]

end ChannelRow

namespace ChannelDb

/-- The abilities are exactly those the channels should have. -/
def Mirrors (s : ChannelDb) : Prop :=
  ∀ a, a ∈ s.abilities.rows ↔ ∃ c ∈ s.channels.rows, c.owns a

theorem exists_ability_of_group (h : s.Mirrors)
    (hc : c ∈ s.channels.rows) {g : String} (hg : g ∈ splitChar ',' c.group) :
    ∃ a ∈ s.abilities.rows, a.group = g := by
  obtain ⟨m, hm⟩ := exists_mem_of_ne_nil _ (splitChar_ne_nil ',' c.models)
  have hpair : (g, m) ∈ c.pairs := mem_pairs.2 ⟨hg, hm⟩
  exact ⟨c.ability (g, m), (h _).2 ⟨c, hc, _, hpair, rfl⟩, rfl⟩

structure Inv (s : ChannelDb) : Prop where
  mirrors : s.Mirrors
  separated : ∀ c ∈ s.channels.rows, c.Separated
  ids : ∀ c ∈ s.channels.rows, c.id < s.nextId

theorem mem_addAbilities {s : ChannelDb} {c : ChannelRow}
    (hfresh : ∀ a ∈ s.abilities.rows, a.channelId ≠ c.id) {a : AbilityRow} :
    a ∈ (s.addAbilities c).abilities.rows ↔ a ∈ s.abilities.rows ∨ a ∈ c.abilities := by
  refine Table.mem_insertAll fun x hx y hy hkey => ?_
  rcases hy with hy | hy
  · have hid : x.channelId = y.channelId := (Prod.ext_iff.1 (Prod.ext_iff.1 hkey).2).2
    exact absurd (hid.symm.trans (channelId_of_mem hx)) (hfresh y hy)
  · exact eq_of_key hx hy hkey

theorem foldl_same {β : Type*} {f : ChannelDb → β → ChannelDb}
    (hf : ∀ s b, (f s b).channels = s.channels ∧ (f s b).nextId = s.nextId) :
    ∀ (bs : List β) (s : ChannelDb),
      (bs.foldl f s).channels = s.channels ∧ (bs.foldl f s).nextId = s.nextId
  | [], _ => ⟨rfl, rfl⟩
  | b :: bs, s => by
    obtain ⟨hc, hn⟩ := foldl_same hf bs (f s b)
    exact ⟨hc.trans (hf s b).1, hn.trans (hf s b).2⟩

theorem mem_foldl_addAbilities : ∀ {cs : List ChannelRow} {s : ChannelDb},
    (cs.map (·.id)).Nodup → (∀ c ∈ cs, ∀ a ∈ s.abilities.rows, a.channelId ≠ c.id) →
    (a ∈ (cs.foldl addAbilities s).abilities.rows ↔
      a ∈ s.abilities.rows ∨ ∃ c ∈ cs, a ∈ c.abilities)
  | [], s, _, _ => by simp
  | c :: cs, s, hids, hfresh => by
    rw [map_cons, nodup_cons] at hids
    have hadd := fun b => @mem_addAbilities s c (hfresh c mem_cons_self) b
    have hlater : ∀ c' ∈ cs, ∀ b ∈ (s.addAbilities c).abilities.rows, b.channelId ≠ c'.id := by
      intro c' hc' b hb
      rcases (hadd b).1 hb with hb | hb
      · exact hfresh c' (mem_cons_of_mem _ hc') b hb
      · rw [channelId_of_mem hb]
        intro hid
        exact hids.1 (mem_map.2 ⟨c', hc', hid.symm⟩)
    rw [foldl_cons, mem_foldl_addAbilities hids.2 hlater, hadd a]
    simp [exists_eq_or_imp, or_assoc]

variable {ids : List ℕ}

theorem mem_deleteAbilities :
    a ∈ (s.deleteAbilities ids).abilities.rows ↔ a ∈ s.abilities.rows ∧ a.channelId ∉ ids := by
  simp [deleteAbilities, Table.mem_filter]

theorem mem_fixChunk (hids : (cs.map (·.id)).Nodup) : a ∈ (s.fixChunk cs).abilities.rows ↔
      a ∈ s.abilities.rows ∧ a.channelId ∉ cs.map (·.id) ∨ ∃ c ∈ cs, a ∈ c.abilities := by
  rw [fixChunk, mem_foldl_addAbilities hids, mem_deleteAbilities]
  intro c hc b hb hid
  exact (mem_deleteAbilities.1 hb).2 (mem_map.2 ⟨c, hc, hid.symm⟩)

theorem updateAbilities_same (s : ChannelDb) (c : ChannelRow) :
    (s.updateAbilities c).channels = s.channels ∧ (s.updateAbilities c).nextId = s.nextId :=
  ⟨rfl, rfl⟩

theorem fixChunk_same (s : ChannelDb) (cs : List ChannelRow) :
    (s.fixChunk cs).channels = s.channels ∧ (s.fixChunk cs).nextId = s.nextId :=
  @foldl_same _ addAbilities (fun _ _ => ⟨rfl, rfl⟩) cs _

theorem mem_foldl_fixChunk : ∀ {css : List (List ChannelRow)} {s : ChannelDb},
    (css.flatten.map (·.id)).Nodup →
    (a ∈ (css.foldl fixChunk s).abilities.rows ↔
      a ∈ s.abilities.rows ∧ a.channelId ∉ css.flatten.map (·.id) ∨
        ∃ c ∈ css.flatten, a ∈ c.abilities)
  | [], s, _ => by simp
  | cs :: css, s, hids => by
    rw [flatten_cons, map_append, nodup_append] at hids
    obtain ⟨hcs, hcss, hdisj⟩ := hids
    have hsplit : (∃ c ∈ cs ++ css.flatten, a ∈ c.abilities) ↔
        (∃ c ∈ cs, a ∈ c.abilities) ∨ ∃ c ∈ css.flatten, a ∈ c.abilities := by
      simp [or_and_right, exists_or]
    rw [foldl_cons, mem_foldl_fixChunk hcss, mem_fixChunk hcs, flatten_cons, hsplit,
      map_append, mem_append, not_or]
    constructor
    · rintro (⟨⟨ha, hna⟩ | hc, hlater⟩ | hc)
      · exact .inl ⟨ha, hna, hlater⟩
      · exact .inr (.inl hc)
      · exact .inr (.inr hc)
    · rintro (⟨ha, hna, hlater⟩ | ⟨c, hc, hac⟩ | hc)
      · exact .inl ⟨.inl ⟨ha, hna⟩, hlater⟩
      · refine .inl ⟨.inr ⟨c, hc, hac⟩, fun hmem => ?_⟩
        rw [channelId_of_mem hac] at hmem
        exact hdisj _ (mem_map_of_mem hc) _ hmem rfl
      · exact .inr hc

theorem foldl_updateAbilities_eq (cs : List ChannelRow) (s : ChannelDb) :
    cs.foldl updateAbilities s = (cs.map ([·])).foldl fixChunk s := by
  rw [foldl_map]
  rfl

theorem mem_foldl_updateAbilities (hids : (cs.map (·.id)).Nodup) :
    a ∈ (cs.foldl updateAbilities s).abilities.rows ↔
      a ∈ s.abilities.rows ∧ a.channelId ∉ cs.map (·.id) ∨ ∃ c ∈ cs, a ∈ c.abilities := by
  have hflat : (cs.map ([·])).flatten = cs := by
    rw [← flatMap_def, flatMap_singleton']
  rw [foldl_updateAbilities_eq, mem_foldl_fixChunk (by rwa [hflat]), hflat]

theorem mirrors_of_rebuild (h : s.Mirrors) (ids : ℕ → Prop) (hrebuilt : ∀ a, a ∈ s'.abilities.rows ↔
      a ∈ s.abilities.rows ∧ ¬ ids a.channelId ∨ ∃ c ∈ s'.channels.rows, ids c.id ∧ c.owns a)
    (hkept : ∀ c, ¬ ids c.id → (c ∈ s'.channels.rows ↔ c ∈ s.channels.rows)) : s'.Mirrors := by
  intro a
  rw [hrebuilt, h a]
  constructor
  · rintro (⟨⟨c, hc, hown⟩, hid⟩ | ⟨c, hc, -, hown⟩)
    · rw [channelId_of_owns hown] at hid
      exact ⟨c, (hkept c hid).2 hc, hown⟩
    · exact ⟨c, hc, hown⟩
  · rintro ⟨c, hc, hown⟩
    by_cases hid : ids c.id
    · exact .inr ⟨c, hc, hid, hown⟩
    · refine .inl ⟨⟨c, (hkept c hid).1 hc, hown⟩, ?_⟩
      rwa [channelId_of_owns hown]

theorem mirrors_of_map (h : s.Mirrors) (f : ChannelRow → ChannelRow)
    (g : AbilityRow → AbilityRow) (hchannels : s'.channels.rows = s.channels.rows.map f)
    (habilities : s'.abilities.rows = s.abilities.rows.map g)
    (halike : ∀ c ∈ s.channels.rows,
      (f c).pairs = c.pairs ∧ ∀ p, g (c.ability p) = (f c).ability p) : s'.Mirrors := by
  intro a
  rw [hchannels, habilities]
  constructor
  · intro ha
    obtain ⟨b, hb, rfl⟩ := mem_map.1 ha
    obtain ⟨c, hc, p, hp, rfl⟩ := (h b).1 hb
    refine ⟨f c, mem_map_of_mem hc, p, ?_, ((halike c hc).2 p).symm⟩
    rwa [(halike c hc).1]
  · rintro ⟨c', hc', p, hp, rfl⟩
    obtain ⟨c, hc, rfl⟩ := mem_map.1 hc'
    rw [(halike c hc).1] at hp
    rw [← (halike c hc).2 p]
    exact mem_map_of_mem ((h _).2 ⟨c, hc, p, hp, rfl⟩)

theorem inv_of_map (h : s.Inv) (f : ChannelRow → ChannelRow)
    (g : AbilityRow → AbilityRow) (hchannels : s'.channels.rows = s.channels.rows.map f)
    (habilities : s'.abilities.rows = s.abilities.rows.map g) (hnext : s'.nextId = s.nextId)
    (halike : ∀ c ∈ s.channels.rows, (f c).id = c.id ∧
      (f c).pairs = c.pairs ∧ ∀ p, g (c.ability p) = (f c).ability p) : s'.Inv where
  mirrors := mirrors_of_map h.mirrors f g hchannels habilities fun c hc => (halike c hc).2
  separated := by
    intro c' hc'
    rw [hchannels] at hc'
    obtain ⟨c, hc, rfl⟩ := mem_map.1 hc'
    have hsep := h.separated c hc
    rwa [ChannelRow.Separated, ← (halike c hc).2.1] at hsep
  ids := by
    intro c' hc'
    rw [hchannels] at hc'
    obtain ⟨c, hc, rfl⟩ := mem_map.1 hc'
    rw [(halike c hc).1, hnext]
    exact h.ids c hc

structure Created (s s' : ChannelDb) (cs rows : List ChannelRow) : Prop where
  abilities : s'.abilities = s.abilities
  channels : ∀ c, c ∈ s'.channels.rows ↔ c ∈ s.channels.rows ∨ c ∈ rows
  nodup : (rows.map (·.id)).Nodup
  fresh : ∀ r ∈ rows, ∀ c ∈ s.channels.rows, c.id ≠ r.id
  next : s.nextId ≤ s'.nextId
  ids : ∀ r ∈ rows, r.id < s'.nextId
  pairs : ∀ r ∈ rows, ∃ c ∈ cs, r.pairs = c.withDefaults.pairs

variable {row : ChannelRow}

theorem created_of_createRow
    (h : s.createRow c = some (s', row)) : Created s s' [c] [row] := by
  simp only [createRow, Option.ite_none_right_eq_some, Option.some.injEq, Prod.mk.injEq] at h
  obtain ⟨hfree, rfl, rfl⟩ := h
  refine ⟨rfl, fun b => ?_, nodup_singleton _, ?_, le_max_left _ _, ?_, ?_⟩
  · rw [mem_singleton]
    exact Table.mem_insert_iff hfree
  · intro r hr b hb hid
    rw [mem_singleton] at hr
    rw [hr] at hid
    have hsome := Table.find_of_mem hb
    rw [hid, hfree] at hsome
    cases hsome
  · intro r hr
    rw [mem_singleton] at hr
    rw [hr]
    exact lt_of_lt_of_le (Nat.lt_succ_self _) (le_max_right _ _)
  · intro r hr
    rw [mem_singleton] at hr
    exact ⟨c, mem_singleton_self c, by rw [hr]; rfl⟩

theorem created_of_createRows : ∀ {cs : List ChannelRow} {s s' : ChannelDb}
    {rows : List ChannelRow}, s.createRows cs = some (s', rows) → Created s s' cs rows
  | [], s, s', rows, h => by
    simp only [createRows, Option.some.injEq, Prod.mk.injEq] at h
    obtain ⟨rfl, rfl⟩ := h
    exact ⟨rfl, by simp, nodup_nil, by simp, le_rfl, by simp, by simp⟩
  | c :: cs, s, s', rows, h => by
    simp only [createRows, Option.bind_eq_bind, Option.bind_eq_some_iff, Prod.exists] at h
    obtain ⟨s₁, row, hrow, s₂, rows', hrows, heq⟩ := h
    obtain ⟨rfl, rfl⟩ := Prod.mk.inj (Option.some.inj heq)
    have h₁ := created_of_createRow hrow
    have h₂ := created_of_createRows hrows
    have hmem : row ∈ s₁.channels.rows := (h₁.channels row).2 (.inr (mem_singleton_self row))
    refine ⟨h₂.abilities.trans h₁.abilities, fun b => ?_, ?_, ?_, h₁.next.trans h₂.next, ?_, ?_⟩
    · rw [h₂.channels, h₁.channels, mem_singleton, mem_cons, or_assoc]
    · rw [map_cons, nodup_cons]
      refine ⟨fun hid => ?_, h₂.nodup⟩
      obtain ⟨r, hr, heq⟩ := mem_map.1 hid
      exact h₂.fresh r hr row hmem heq.symm
    · intro r hr b hb
      rcases mem_cons.1 hr with rfl | hr
      · exact h₁.fresh r (mem_singleton_self r) b hb
      · exact h₂.fresh r hr b ((h₁.channels b).2 (.inl hb))
    · intro r hr
      rcases mem_cons.1 hr with rfl | hr
      · exact lt_of_lt_of_le (h₁.ids r (mem_singleton_self r)) h₂.next
      · exact h₂.ids r hr
    · intro r hr
      rcases mem_cons.1 hr with rfl | hr
      · obtain ⟨b, hb, hpairs⟩ := h₁.pairs r (mem_singleton_self r)
        exact ⟨b, by rw [mem_singleton.1 hb]; exact mem_cons_self, hpairs⟩
      · obtain ⟨b, hb, hpairs⟩ := h₂.pairs r hr
        exact ⟨b, mem_cons_of_mem _ hb, hpairs⟩

theorem inv_created {rows : List ChannelRow} (h : s.Inv)
    (hcreated : Created s s' cs rows) (hsep : ∀ c ∈ cs, c.withDefaults.Separated) :
    (rows.foldl addAbilities s').Inv := by
  obtain ⟨hch, hnext⟩ := @foldl_same _ addAbilities (fun _ _ => ⟨rfl, rfl⟩) rows s'
  have hrows : ∀ r ∈ rows, r.Separated := by
    intro r hr
    obtain ⟨c, hc, hpairs⟩ := hcreated.pairs r hr
    rw [ChannelRow.Separated, hpairs]
    exact hsep c hc
  have hfresh : ∀ r ∈ rows, ∀ a ∈ s.abilities.rows, a.channelId ≠ r.id := by
    intro r hr a ha
    obtain ⟨c, hc, hown⟩ := (h.mirrors a).1 ha
    rw [channelId_of_owns hown]
    exact hcreated.fresh r hr c hc
  refine ⟨mirrors_of_rebuild h.mirrors (· ∈ rows.map (·.id)) (fun a => ?_) (fun c hc => ?_), ?_, ?_⟩
  · rw [hch, mem_foldl_addAbilities hcreated.nodup (by rw [hcreated.abilities]; exact hfresh),
      hcreated.abilities]
    constructor
    · rintro (ha | ⟨r, hr, hra⟩)
      · refine .inl ⟨ha, fun hid => ?_⟩
        obtain ⟨r, hr, heq⟩ := mem_map.1 hid
        exact hfresh r hr a ha heq.symm
      · exact .inr ⟨r, (hcreated.channels r).2 (.inr hr), mem_map_of_mem hr,
          (mem_abilities (hrows r hr)).1 hra⟩
    · rintro (⟨ha, -⟩ | ⟨r, hr, hid, hown⟩)
      · exact .inl ha
      · rcases (hcreated.channels r).1 hr with hold | hnew
        · obtain ⟨r', hr', heq⟩ := mem_map.1 hid
          exact absurd heq.symm (hcreated.fresh r' hr' r hold)
        · exact .inr ⟨r, hnew, (mem_abilities (hrows r hnew)).2 hown⟩
  · rw [hch, hcreated.channels]
    exact or_iff_left fun hnew => hc (mem_map_of_mem hnew)
  · intro c hc
    rw [hch, hcreated.channels] at hc
    exact hc.elim (h.separated c) (hrows c)
  · intro c hc
    rw [hch, hcreated.channels] at hc
    rw [hnext]
    rcases hc with hold | hnew
    · exact lt_of_lt_of_le (h.ids c hold) hcreated.next
    · exact hcreated.ids c hnew

theorem inv_insert (h : s.Inv) (hsep : c.withDefaults.Separated) : (s.insert c).Inv := by
  rw [insert]
  split
  · exact h
  · rename_i s' row hrow
    refine inv_created h (created_of_createRow hrow) fun b hb => ?_
    rwa [mem_singleton.1 hb]

theorem inv_insertChunks : ∀ {chunks : List (List ChannelRow)} {s s' : ChannelDb}, s.Inv →
    (∀ c ∈ chunks.flatten, c.withDefaults.Separated) → s.insertChunks chunks = some s' → s'.Inv
  | [], s, s', h, _, heq => by
    rw [insertChunks, Option.some.injEq] at heq
    rwa [← heq]
  | chunk :: chunks, s, s', h, hsep, heq => by
    simp only [insertChunks, Option.bind_eq_bind, Option.bind_eq_some_iff, Prod.exists] at heq
    obtain ⟨s₁, rows, hrows, hlater⟩ := heq
    simp only [flatten_cons, mem_append] at hsep
    have hinv := inv_created h (created_of_createRows hrows) fun c hc => hsep c (.inl hc)
    exact inv_insertChunks hinv (fun c hc => hsep c (.inr hc)) hlater

theorem inv_batchInsertChannels (h : s.Inv)
    (hsep : ∀ c ∈ cs, c.withDefaults.Separated) : (s.batchInsertChannels cs).Inv := by
  rw [batchInsertChannels]
  rcases hchunks : s.insertChunks (cs.toChunks 50) with _ | s'
  · exact h
  · exact inv_insertChunks h (by rwa [toChunks_flatten]) hchunks

theorem inv_rewrite {s t : ChannelDb} (h : s.Inv) (f : ChannelRow → ChannelRow)
    (test : ChannelRow → Prop) {cs : List ChannelRow} (hid : ∀ c, (f c).id = c.id)
    (habilities : t.abilities = s.abilities) (hnext : t.nextId = s.nextId)
    (hrows : t.channels.rows = s.channels.rows.map f)
    (hsame : ∀ c ∈ s.channels.rows, ¬ test (f c) → f c = c)
    (hsep : ∀ c ∈ s.channels.rows, (f c).Separated) (hids : (cs.map (·.id)).Nodup)
    (hmem : ∀ c, c ∈ cs ↔ c ∈ t.channels.rows ∧ test c) : (cs.foldl updateAbilities t).Inv := by
  obtain ⟨hch, hnext'⟩ := foldl_same updateAbilities_same cs t
  have htsep : ∀ c ∈ t.channels.rows, c.Separated := by
    intro c hc
    rw [hrows] at hc
    obtain ⟨b, hb, rfl⟩ := mem_map.1 hc
    exact hsep b hb
  refine ⟨mirrors_of_rebuild h.mirrors (· ∈ cs.map (·.id)) (fun a => ?_) (fun c hc => ?_), ?_, ?_⟩
  · rw [mem_foldl_updateAbilities hids, habilities, hch]
    refine or_congr_right ⟨?_, ?_⟩
    · rintro ⟨c, hc, hac⟩
      have hct := ((hmem c).1 hc).1
      exact ⟨c, hct, mem_map_of_mem hc, (mem_abilities (htsep c hct)).1 hac⟩
    · rintro ⟨c, hc, hid', hown⟩
      obtain ⟨b, hb, heq⟩ := mem_map.1 hid'
      have hbc : b = c := Table.eq_of_key ((hmem b).1 hb).1 hc heq
      exact ⟨c, hbc ▸ hb, (mem_abilities (htsep c hc)).2 hown⟩
  · rw [hch]
    constructor
    · intro hct
      have htest : ¬ test c := fun htest =>
        hc (mem_map_of_mem ((hmem c).2 ⟨hct, htest⟩))
      rw [hrows] at hct
      obtain ⟨b, hb, rfl⟩ := mem_map.1 hct
      rwa [hsame b hb htest]
    · intro hcs'
      have hft : f c ∈ t.channels.rows := by
        rw [hrows]
        exact mem_map_of_mem hcs'
      have htest : ¬ test (f c) := fun htest =>
        hc (mem_map.2 ⟨f c, (hmem _).2 ⟨hft, htest⟩, hid c⟩)
      rwa [hsame c hcs' htest] at hft
  · intro c hc
    rw [hch] at hc
    exact htsep c hc
  · intro c hc
    rw [hch, hrows] at hc
    obtain ⟨b, hb, rfl⟩ := mem_map.1 hc
    rw [hnext', hnext, hid]
    exact h.ids b hb

variable {id : ℕ}

theorem id_of_find
    (h : s.channels.find id = some row) : row.id = id := by
  have hkey := Table.key_of_find h
  exact hkey

variable (unmarshalRaw : String → Option (List String))

theorem recount_pairs (p : ChannelPatch)
    (existing : Option ChannelRow) (c : ChannelRow) :
    (c.updates (p.recount unmarshalRaw existing)).pairs = (c.updates p).pairs := by
  rw [ChannelPatch.recount]
  split <;> rfl

theorem recount_id (p : ChannelPatch)
    (existing : Option ChannelRow) : (p.recount unmarshalRaw existing).id = p.id := by
  rw [ChannelPatch.recount]
  split <;> rfl

theorem find_updateRows
    (h : s.channels.find id = some row) (p : ChannelPatch) :
    (s.updateRows (·.id = id) p).channels.find id = some (row.updates p) := by
  rw [updateRows, Table.find_map, h, Option.map_some, if_pos]
  simpa using id_of_find h

variable {p : ChannelPatch}

theorem find_update (h : s.channels.find p.id = some row) :
    (s.update unmarshalRaw p).channels.find p.id =
      some (row.updates (p.recount unmarshalRaw (some row))) := by
  simp only [update, h, recount_id]
  exact find_updateRows h _

theorem inv_update (h : s.Inv) (hrow : s.channels.find p.id = some row)
    (hsep : (row.updates p).Separated) : (s.update unmarshalRaw p).Inv := by
  have hpairs := recount_pairs unmarshalRaw p (some row) row
  simp only [update, hrow, recount_id]
  generalize p.recount unmarshalRaw (some row) = q at hpairs
  have hfind := find_updateRows hrow q
  rw [hfind, Option.getD_some]
  have hid : ∀ c : ChannelRow, (if c.id = p.id then c.updates q else c).id = c.id := by
    intro c
    split <;> rfl
  have hrows : (s.updateRows (·.id = p.id) q).channels.rows =
      s.channels.rows.map fun c => if c.id = p.id then c.updates q else c := by
    simp [updateRows, Table.map]
  refine @inv_rewrite s _ h _ (·.id = p.id) [row.updates q] hid rfl rfl hrows ?_ ?_
    (nodup_singleton _) ?_
  · intro c _ htest
    rw [hid] at htest
    exact if_neg htest
  · intro c hc
    by_cases hcid : c.id = p.id
    · have hcrow : c = row := Table.eq_of_key hc (Table.mem_of_find hrow)
        (hcid.trans (Table.key_of_find hrow).symm)
      rw [if_pos hcid, hcrow, ChannelRow.Separated, hpairs]
      exact hsep
    · rw [if_neg hcid]
      exact h.separated c hc
  · intro c
    have hkey := id_of_find hrow
    rw [mem_singleton]
    constructor
    · rintro rfl
      exact ⟨Table.mem_of_find hfind, hkey⟩
    · rintro ⟨hc, hcid⟩
      exact Table.eq_of_key hc (Table.mem_of_find hfind) (hcid.trans hkey.symm)

theorem inv_deleted (h : s.Inv) (ids : List ℕ) : ((s.deleteRows ids).deleteAbilities ids).Inv := by
  have hmem : ∀ c, c ∈ ((s.deleteRows ids).deleteAbilities ids).channels.rows ↔
      c ∈ s.channels.rows ∧ c.id ∉ ids := by
    intro c
    simp [deleteRows, deleteAbilities, Table.mem_filter]
  refine ⟨mirrors_of_rebuild h.mirrors (· ∈ ids) (fun a => ?_) (fun c hc => ?_), ?_, ?_⟩
  · rw [mem_deleteAbilities]
    refine (or_iff_left ?_).symm
    rintro ⟨c, hc, hid, -⟩
    exact ((hmem c).1 hc).2 hid
  · rw [hmem]
    exact and_iff_left hc
  · intro c hc
    exact h.separated c ((hmem c).1 hc).1
  · intro c hc
    exact h.ids c ((hmem c).1 hc).1

theorem inv_batchDeleteChannels (h : s.Inv) (ids : List ℕ) : (s.batchDeleteChannels ids).Inv :=
  @run_inv _ _ _ Inv (fun _ chunk hs => inv_deleted hs chunk) s h (ids.toChunks 200)

section Status
variable (unmarshalRaw : String → Option (List String)) (row : Channel) (usingKey : String)
  (status : ChannelStatus) (reason : String) (now : ℤ)

theorem updatedRow_same :
    (updatedRow unmarshalRaw row usingKey status reason now).models = row.models ∧
    (updatedRow unmarshalRaw row usingKey status reason now).group = row.group ∧
    (updatedRow unmarshalRaw row usingKey status reason now).priority =
      row.priority ∧
    (updatedRow unmarshalRaw row usingKey status reason now).weight = row.weight := by
  simp only [updatedRow, handlerMultiKeyUpdate]
  split
  · split
    · exact ⟨rfl, rfl, rfl, rfl⟩
    · split <;> exact ⟨rfl, rfl, rfl, rfl⟩
  · exact ⟨rfl, rfl, rfl, rfl⟩

theorem updatedRow_status :
    (updatedRow unmarshalRaw row usingKey status reason now).status =
      if row.channelInfo.isMultiKey = false ∨ row.getKeys unmarshalRaw = [] then status
      else if exhausts unmarshalRaw row usingKey status then .autoDisabled
      else row.status := by
  simp only [updatedRow, handlerMultiKeyUpdate, exhausts,
    updateKeyStatus_size, updateKeyStatus_length]
  by_cases hmulti : row.channelInfo.isMultiKey = true
  · by_cases hkeys : row.getKeys unmarshalRaw = []
    · simp [hmulti, hkeys]
    · simp only [hmulti, hkeys, if_true, if_false, Bool.true_eq_false, or_self, decide_eq_true_eq]
      exact apply_ite Channel.status _ _ _
  · simp [hmulti]

end Status

theorem inv_put (h : s.Inv) {saved : Channel}
    (hrow : s.channels.find id = some row) (hid : saved.id = row.id)
    (hsame : saved.models = row.models ∧ saved.group = row.group ∧
      saved.priority = row.priority ∧ saved.weight = row.weight)
    (hchannels : s'.channels = s.channels.put { row with toChannel := saved })
    (hnext : s'.nextId = s.nextId) (g : AbilityRow → AbilityRow)
    (habilities : s'.abilities.rows = s.abilities.rows.map g)
    (hown : ∀ p, g (row.ability p) = { row.ability p with enabled := saved.status = .enabled })
    (hother : ∀ a : AbilityRow, a.channelId ≠ id → g a = a) : s'.Inv := by
  have hkey := id_of_find hrow
  refine inv_of_map h (fun c => if c.id = saved.id then { row with toChannel := saved } else c)
    g (by rw [hchannels]; rfl) habilities hnext fun c hc => ?_
  by_cases hc' : c.id = saved.id
  · have hcrow : c = row := Table.eq_of_key hc (Table.mem_of_find hrow) (hc'.trans hid)
    subst hcrow
    obtain ⟨hmodels, hgroup, hpriority, hweight⟩ := hsame
    simp only [if_pos hc']
    refine ⟨hid, ?_, fun p => ?_⟩
    · simp [pairs, hmodels, hgroup]
    · rw [hown]
      simp [ability, hid, Channel.getPriority, Channel.getWeight, hpriority, hweight]
  · simp only [if_neg hc']
    have hne : c.id ≠ id := by rwa [hid, hkey] at hc'
    exact ⟨trivial, trivial, fun p => hother _ hne⟩

theorem inv_updateChannelStatus
    (h : s.Inv) {usingKey : String} {status : ChannelStatus} (reason : String) (now : ℤ)
    (henables : ∀ row, s.channels.find id = some row → row.channelInfo.isMultiKey = true →
      status = .enabled → row.status ≠ .enabled → row.status ≠ .autoDisabled →
      exhausts unmarshalRaw row.toChannel usingKey .enabled = false) :
    (s.updateChannelStatus unmarshalRaw id usingKey status reason now).Inv := by
  simp only [updateChannelStatus]
  split
  · exact h
  rename_i row hrow
  have hkey := id_of_find hrow
  have hid : (updatedRow unmarshalRaw row.toChannel usingKey status reason now).id =
      row.id := updatedRow_id row.toChannel usingKey status reason now
  have hnames := updatedRow_same unmarshalRaw row.toChannel usingKey status reason now
  have hstatus := updatedRow_status unmarshalRaw row.toChannel usingKey status reason now
  generalize updatedRow unmarshalRaw row.toChannel usingKey status reason now = saved
    at hid hnames hstatus
  split_ifs with hold hchanged
  · exact h
  · refine inv_put h hrow hid hnames rfl rfl
      (fun a => if decide (a.channelId = id) = true then { a with enabled := status = .enabled }
        else a) rfl (fun p => ?_) fun a ha => by simp [ha]
    have hflag : status = .enabled ↔ saved.status = .enabled := by
      split at hstatus
      · rw [hstatus]
      · rename_i hkeys
        rw [not_or, Bool.not_eq_false] at hkeys
        split at hstatus
        · rename_i hexhausts
          rw [hstatus] at hchanged ⊢
          refine iff_of_false (fun hst => ?_) (by simp)
          rw [hst] at hold hexhausts
          rw [henables row hrow hkeys.1 hst hold hchanged] at hexhausts
          cases hexhausts
        · exact absurd hstatus.symm hchanged
    simp [ability, hkey, hflag]
  · rw [not_not] at hchanged
    refine inv_put h hrow hid hnames rfl rfl (fun a => a) (by simp) (fun p => ?_) fun a _ => rfl
    simp [ability, hchanged]

theorem inv_byTag (h : s.Inv) (tag : String) (f : ChannelRow → ChannelRow)
    (g : AbilityRow → AbilityRow)
    (hchannels : s'.channels.rows =
      s.channels.rows.map fun c => if decide (c.tag = some tag) = true then f c else c)
    (habilities : s'.abilities.rows =
      s.abilities.rows.map fun a => if decide (a.tag = some tag) = true then g a else a)
    (hnext : s'.nextId = s.nextId)
    (halike : ∀ c ∈ s.channels.rows, c.tag = some tag → (f c).id = c.id ∧
      (f c).pairs = c.pairs ∧ ∀ p, g (c.ability p) = (f c).ability p) : s'.Inv := by
  refine inv_of_map h _ _ hchannels habilities hnext fun c hc => ?_
  by_cases htag : c.tag = some tag
  · simpa [htag, ability] using halike c hc htag
  · simp [htag, ability]

theorem inv_enableChannelByTag (h : s.Inv) (tag : String) : (s.enableChannelByTag tag).Inv :=
  inv_byTag h tag _ _ rfl rfl rfl fun _ _ _ => ⟨rfl, rfl, fun _ => rfl⟩

theorem inv_disableChannelByTag (h : s.Inv) (tag : String) : (s.disableChannelByTag tag).Inv :=
  inv_byTag h tag _ _ rfl rfl rfl fun _ _ _ => ⟨rfl, rfl, fun _ => rfl⟩

theorem patch_tag (e : TagEdit) (tag : String) :
    (e.patch tag).tag.or (some tag) = some (e.newTag.getD tag) := by
  rcases hnew : e.newTag with _ | new
  · simp [TagEdit.patch, hnew]
  · by_cases heq : new = tag <;> simp [TagEdit.patch, hnew, heq]

variable {tag : String} {e : TagEdit}

theorem inv_editAlike (h : s.Inv) (hrecreates : e.recreates = false)
    (hweight : e.weight = some 0 → ∀ c ∈ s.channels.rows, c.tag = some tag → c.getWeight = 0) :
    (s.editChannelByTag tag e).Inv := by
  simp only [TagEdit.recreates, ne_eq, decide_not, Bool.or_eq_false_iff, Bool.not_eq_false',
    decide_eq_true_eq] at hrecreates
  have hr : e.recreates = false := by simp [TagEdit.recreates, hrecreates]
  simp only [editChannelByTag, hr, Bool.false_eq_true, if_false]
  refine inv_byTag h tag (·.updates (e.patch tag)) _ rfl rfl rfl fun c hc htag =>
    ⟨rfl, ?_, fun p => ?_⟩
  · simp [pairs, updates, TagEdit.patch, hrecreates]
  · have hnew : e.newTag.or c.tag = (e.patch tag).tag.or c.tag := by
      rw [htag, patch_tag, Option.or_some]
    have hpriority : e.priority.getD c.getPriority = (e.priority.or c.priority).getD 0 := by
      cases e.priority <;> rfl
    have hw : (if e.weight.getD 0 = 0 then c.getWeight else e.weight.getD 0) =
        (e.weight.or c.weight).getD 0 := by
      rcases he : e.weight with _ | w
      · rfl
      · rcases w with _ | w
        · exact hweight he c hc htag
        · rfl
    simp only [ability, hnew, hpriority, hw]
    rfl

theorem inv_editChannelByTag (h : s.Inv)
    (hsep : e.recreates = true → ∀ c ∈ s.channels.rows, c.tag = some tag →
      (c.updates (e.patch tag)).Separated)
    (hweight : e.recreates = false → e.weight = some 0 → ∀ c ∈ s.channels.rows, c.tag = some tag →
      c.getWeight = 0) : (s.editChannelByTag tag e).Inv := by
  rcases hr : e.recreates with _ | _
  · exact inv_editAlike h hr (hweight hr)
  simp only [editChannelByTag, hr, if_true]
  have htagged : ∀ c : ChannelRow, c.tag = some tag →
      (c.updates (e.patch tag)).tag = some (e.newTag.getD tag) := by
    intro c htag
    rw [← patch_tag, ← htag]
    rfl
  refine inv_rewrite h (fun c => if decide (c.tag = some tag) = true then
    c.updates (e.patch tag) else c) (·.tag = some (e.newTag.getD tag)) ?_ rfl rfl rfl ?_ ?_ ?_ ?_
  · intro c
    split <;> rfl
  · intro c _ htest
    by_cases htag : c.tag = some tag
    · simp [htag, htagged c htag] at htest
    · simp [htag]
  · intro c hc
    by_cases htag : c.tag = some tag
    · simpa [htag] using hsep hr c hc htag
    · simpa [htag] using h.separated c hc
  · rw [((perm_insertionSort _ _).map _).nodup_iff]
    exact Table.nodup _ |>.sublist (filter_sublist.map _)
  · intro c
    rw [mem_insertionSort, mem_filter, decide_eq_true_eq]

theorem inv_batchSetChannelTag (h : s.Inv) {tag : Option String}
    (hold : ∀ c ∈ s.channels.rows, c.id ∈ ids → c.tag = tag) :
    (s.batchSetChannelTag ids tag).Inv := by
  have hsame : ∀ c ∈ s.channels.rows,
      (if c.id ∈ ids then ({ c with tag } : ChannelRow) else c) = c := by
    intro c hc
    split_ifs with hid
    · rw [← hold c hc hid]
    · rfl
  simp only [batchSetChannelTag]
  refine inv_rewrite h _ (·.id ∈ ids) ?_ rfl rfl rfl (fun c hc _ => hsame c hc) ?_ ?_ ?_
  · intro c
    split <;> rfl
  · intro c hc
    rw [hsame c hc]
    exact h.separated c hc
  · exact s.channels.nodup.sublist (filter_sublist.map _)
  · intro c
    simp only [Table.map, mem_filter, decide_eq_true_eq]
    rw [map_congr_left hsame, map_id']

theorem inv_deleteDisabledChannel (h : s.Inv)
    (hold : ∀ c ∈ s.channels.rows, c.status ≠ .autoDisabled ∧ c.status ≠ .manuallyDisabled) :
    s.deleteDisabledChannel.Inv := by
  refine inv_of_map h (fun c => c) (fun a => a) ?_ (by simp [deleteDisabledChannel]) rfl
    fun c hc => ⟨rfl, rfl, fun p => rfl⟩
  rw [map_id']
  refine filter_eq_self.2 fun c hc => ?_
  simpa using hold c hc

theorem inv_fixAbility (h : s.Inv) : s.fixAbility.Inv := by
  have hflat := toChunks_flatten 50 s.channels.rows
  obtain ⟨hch, hnext⟩ := foldl_same fixChunk_same (s.channels.rows.toChunks 50)
    s.truncateAbilities
  refine ⟨fun a => ?_, ?_, ?_⟩
  · rw [fixAbility, mem_foldl_fixChunk (by rw [hflat]; exact s.channels.nodup), hflat, hch]
    constructor
    · rintro (⟨ha, -⟩ | ⟨c, hc, hac⟩)
      · exact absurd ha (by simp [truncateAbilities])
      · exact ⟨c, hc, (mem_abilities (h.separated c hc)).1 hac⟩
    · rintro ⟨c, hc, hown⟩
      exact .inr ⟨c, hc, (mem_abilities (h.separated c hc)).2 hown⟩
  · rw [fixAbility, hch]
    exact h.separated
  · rw [fixAbility, hch, hnext]
    exact h.ids

def InStep (unmarshalRaw : String → Option (List String)) (s : ChannelDb) : Event → Prop
  | .insert c => c.withDefaults.Separated
  | .batchInsertChannels cs => ∀ c ∈ cs, c.withDefaults.Separated
  | .update p => ∃ row, s.channels.find p.id = some row ∧ (row.updates p).Separated
  | .updateChannelStatus passes id usingKey status _ _ =>
    passes = true → ∀ row, s.channels.find id = some row → row.channelInfo.isMultiKey = true →
      status = .enabled → row.status ≠ .enabled → row.status ≠ .autoDisabled →
      exhausts unmarshalRaw row.toChannel usingKey .enabled = false
  | .editChannelByTag tag e =>
    (e.recreates = true → ∀ c ∈ s.channels.rows, c.tag = some tag →
      (c.updates (e.patch tag)).Separated) ∧
    (e.recreates = false → e.weight = some 0 → ∀ c ∈ s.channels.rows, c.tag = some tag →
      c.getWeight = 0)
  | .batchSetChannelTag ids tag => ∀ c ∈ s.channels.rows, c.id ∈ ids → c.tag = tag
  | .deleteDisabledChannel =>
    ∀ c ∈ s.channels.rows, c.status ≠ .autoDisabled ∧ c.status ≠ .manuallyDisabled
  | _ => True

theorem inv_step (h : s.Inv)
    (e : Event) (hin : InStep unmarshalRaw s e) : (s.step unmarshalRaw e).Inv := by
  cases e with
  | insert => exact inv_insert h hin
  | batchInsertChannels => exact inv_batchInsertChannels h hin
  | update =>
    obtain ⟨row, hrow, hsep⟩ := hin
    exact inv_update unmarshalRaw h hrow hsep
  | delete id => exact inv_deleted h [id]
  | batchDeleteChannels ids => exact inv_batchDeleteChannels h ids
  | updateChannelStatus _ _ _ _ reason now =>
    rw [step]
    split_ifs with hpasses
    · exact inv_updateChannelStatus unmarshalRaw h reason now (hin hpasses)
    · exact h
  | enableChannelByTag tag => exact inv_enableChannelByTag h tag
  | disableChannelByTag tag => exact inv_disableChannelByTag h tag
  | editChannelByTag => exact inv_editChannelByTag h hin.1 hin.2
  | batchSetChannelTag => exact inv_batchSetChannelTag h hin
  | deleteDisabledChannel => exact inv_deleteDisabledChannel h hin
  | fixAbility => exact inv_fixAbility h

theorem inv_empty : empty.Inv :=
  ⟨fun a => by simp [empty], fun c hc => by simp [empty] at hc, fun c hc => by simp [empty] at hc⟩

theorem inv_run {events : List Event}
    (h : Along (step unmarshalRaw) (InStep unmarshalRaw) empty events) :
    (run (step unmarshalRaw) empty events).Inv :=
  Along.run_inv (I := Inv) (fun _ e hs hin => inv_step unmarshalRaw hs e hin) inv_empty h

/-- After every run of operations that each find the tables as they need them, the abilities are
those of the channels. -/
theorem abilities_mirror_channels (unmarshalRaw : String → Option (List String))
    {events : List Event} (h : Along (step unmarshalRaw) (InStep unmarshalRaw) empty events) :
    (run (step unmarshalRaw) empty events).Mirrors :=
  (inv_run unmarshalRaw h).mirrors

def sampleRow : ChannelRow :=
  { id := 0, key := "k", models := "gpt-4o,o3", group := "default,vip", weight := some 5,
    tag := some "a" }

theorem sampleRow_separated : sampleRow.withDefaults.Separated := by
  unfold ChannelRow.Separated
  decide

theorem abilities_mirror_channels_sample : Along (step fun _ => none) (InStep fun _ => none) empty
      [.insert sampleRow, .disableChannelByTag "a", .fixAbility] ∧
    (run (step fun _ => none) empty
      [.insert sampleRow, .disableChannelByTag "a", .fixAbility]).Mirrors :=
  have h : Along (step fun _ => none) (InStep fun _ => none) empty
      [.insert sampleRow, .disableChannelByTag "a", .fixAbility] :=
    ⟨sampleRow_separated, trivial, trivial, trivial⟩
  ⟨h, abilities_mirror_channels (fun _ => none) h⟩

theorem mirrors_iff (s : ChannelDb) : s.Mirrors ↔
    (∀ a ∈ s.abilities.rows, ∃ c ∈ s.channels.rows, c.owns a) ∧
      ∀ c ∈ s.channels.rows, ∀ p ∈ c.pairs, c.ability p ∈ s.abilities.rows := by
  constructor
  · intro h
    exact ⟨fun a ha => (h a).1 ha, fun c hc p hp => (h _).2 ⟨c, hc, p, hp, rfl⟩⟩
  · rintro ⟨hown, hall⟩ a
    refine ⟨hown a, ?_⟩
    rintro ⟨c, hc, p, hp, rfl⟩
    exact hall c hc p hp

instance (c : ChannelRow) (a : AbilityRow) : Decidable (c.owns a) :=
  inferInstanceAs (Decidable (∃ p ∈ c.pairs, c.ability p = a))

instance (s : ChannelDb) : Decidable s.Mirrors := decidable_of_iff' _ (mirrors_iff s)

def sampleMultiKey : ChannelRow :=
  { id := 0, key := "k", models := "o3", status := .manuallyDisabled,
    channelInfo :=
      { isMultiKey := true, multiKeySize := 1,
        multiKeyStatusList := (∅ : AList fun _ : ℕ => ChannelStatus).insert 1 .autoDisabled } }

/-- The states in which an operation leaves rows and abilities apart. -/
theorem abilities_drift :
    ¬ (run (step fun _ => none) empty [.insert sampleRow, .disableChannelByTag "a",
      .deleteDisabledChannel]).Mirrors ∧
    ¬ (run (step fun _ => none) empty [.insert sampleRow,
      .editChannelByTag "a" { weight := some 0 }]).Mirrors ∧
    ¬ (run (step fun _ => none) empty [.insert sampleRow,
      .batchSetChannelTag [1] (some "b")]).Mirrors ∧
    ¬ (run (step fun _ => none) empty [.insert sampleMultiKey,
      .updateChannelStatus true 1 "k" .enabled "" 0]).Mirrors ∧
    ¬ (run (step fun _ => none) empty
      [.insert { id := 0, models := "b|c,c", group := "a,a|b" }]).Mirrors ∧
    ¬ (run (step fun _ => none) empty [.insert sampleRow, .delete 1,
      .update { id := 1, models := "o3", group := "default" }]).Mirrors := by
  decide

end ChannelDb

end AggreApi
