import Mathlib

/-!
# Tables with a primary key

A table is a list of rows no two of which share their key. A statement that rewrites rows in place
is `Table.map`; `put` overwrites the row with the key of a given one, `cas` only where the stored
row passes a test, `insert` adds a row whose key is new. `col` reads a column of numbers off the
rows and `total` adds one up.
-/

namespace AggreApi

open List

structure Table {κ α : Type*} (key : α → κ) where
  rows : List α
  nodup : (rows.map key).Nodup

namespace Table

variable {κ α : Type*} [DecidableEq κ] {key : α → κ}

def find (t : Table key) (k : κ) : Option α := t.rows.find? fun a => key a = k

/-- Every row rewritten by `f`, which keeps the keys. -/
def map (t : Table key) (f : α → α) (hf : ∀ a, key (f a) = key a) : Table key where
  rows := t.rows.map f
  nodup := by
    have : key ∘ f = key := funext hf
    simpa [map_map, this] using t.nodup

variable {t : Table key} {k : κ} {a : α}

theorem key_of_find (h : t.find k = some a) : key a = k := by
  simpa using find?_some h

theorem mem_of_find (h : t.find k = some a) : a ∈ t.rows :=
  mem_of_find?_eq_some h

variable {b : α}

omit [DecidableEq κ] in
theorem eq_of_key (ha : a ∈ t.rows) (hb : b ∈ t.rows)
    (h : key a = key b) : a = b :=
  inj_on_of_nodup_map t.nodup ha hb h

theorem find_of_mem (h : a ∈ t.rows) : t.find (key a) = some a := by
  rcases hf : t.find (key a) with _ | b
  · simpa using find?_eq_none.1 hf a h
  · rw [eq_of_key (mem_of_find hf) h (key_of_find hf)]

theorem find_map (t : Table key) (f : α → α) (hf : ∀ a, key (f a) = key a) (k : κ) :
    (t.map f hf).find k = (t.find k).map f := by
  have : ((fun a => decide (key a = k)) ∘ f) = fun a => decide (key a = k) := by
    funext a
    simp [hf]
  simp only [find, map, find?_map, this]

/-- The row with the key of `a` is overwritten by `a`; where there is none, nothing happens. -/
def put (t : Table key) (a : α) : Table key :=
  t.map (fun r => if key r = key a then a else r) fun r => by split_ifs with h <;> simp [h]

variable {r : α}

theorem find_put_self (h : t.find (key a) = some r) :
    (t.put a).find (key a) = some a := by
  simp [put, find_map, h, key_of_find h]

theorem find_put_of_ne (t : Table key) (h : k ≠ key a) :
    (t.put a).find k = t.find k := by
  rw [put, find_map]
  rcases hf : t.find k with _ | r
  · rfl
  · simp [key_of_find hf, h]

theorem put_put (t : Table key) (h : key b = key a) : (t.put a).put b = t.put b := by
  simp only [put, map, map_map, mk.injEq]
  refine map_congr_left fun r _ => ?_
  by_cases hr : key r = key a <;> simp [hr, h]

/-- Some rows overwritten one after the other, the first of the list last. -/
def putAll (t : Table key) (rows : List α) : Table key := rows.foldr (fun a t => t.put a) t

@[simp] theorem putAll_nil (t : Table key) : t.putAll [] = t := rfl

@[simp] theorem putAll_cons (t : Table key) (a : α) (rows : List α) :
    t.putAll (a :: rows) = (t.putAll rows).put a := rfl

theorem find_putAll (t : Table key) (k : κ) : ∀ rows : List α,
    (t.putAll rows).find k =
      (t.find k).map fun r => (rows.find? fun a => key a = k).getD r
  | [] => by simp
  | a :: rows => by
    have ih := find_putAll t k rows
    by_cases ha : key a = k
    · rcases hf : t.find k with _ | r <;> rw [hf] at ih
      · rw [putAll_cons, put, find_map, ih]
        rfl
      · rw [putAll_cons, ← ha, find_put_self (a := a) (by rw [ha]; exact ih)]
        simp
    · rw [putAll_cons, find_put_of_ne _ (Ne.symm ha), ih]
      simp [ha]

/-- What a row agrees on with the one it overwrites is as it was. -/
theorem map_find_put {β : Type*} (f : α → β)
    (h : t.find (key a) = some r) (hf : f a = f r) (k : κ) :
    ((t.put a).find k).map f = (t.find k).map f := by
  by_cases hk : k = key a
  · rw [hk, find_put_self h, h, Option.map_some, Option.map_some, hf]
  · rw [find_put_of_ne t hk]

/-- A column of the row stored under a key, and zero where there is none. -/
def col (m : α → ℤ) (t : Table key) (k : κ) : ℤ := ((t.find k).map m).getD 0

variable {m : α → ℤ}

theorem col_of_find (h : t.find k = some a) :
    t.col m k = m a := by
  simp [col, h]

/-- An overwrite moves a column by the difference of the two rows, at their key. -/
theorem col_put (m : α → ℤ) (h : t.find (key a) = some r) (k : κ) :
    (t.put a).col m k = t.col m k + if k = key a then m a - m r else 0 := by
  split_ifs with hk
  · rw [hk, col_of_find (find_put_self h), col_of_find h]
    omega
  · rw [col, find_put_of_ne t hk, add_zero, col]

theorem mem_put (h : r ∈ (t.put a).rows) :
    r ∈ t.rows ∨ r = a ∧ ∃ b ∈ t.rows, key b = key a := by
  simp only [put, map, mem_map] at h
  obtain ⟨b, hb, rfl⟩ := h
  split_ifs with hk
  · exact .inr ⟨rfl, b, hb, hk⟩
  · exact .inl hb

/-- A row under another key is there after an overwrite if it was before. -/
theorem mem_put_of_ne (h : key r ≠ key a) :
    r ∈ (t.put a).rows ↔ r ∈ t.rows := by
  constructor
  · intro hr
    rcases mem_put hr with hold | ⟨rfl, -⟩
    · exact hold
    · exact absurd rfl h
  · intro hr
    exact mem_map.2 ⟨r, hr, if_neg h⟩

variable {p : α → Bool}

/-- Of rows with different keys at most one has a given key. -/
theorem countP_le_one {l : List α} (hl : (l.map key).Nodup)
    (hp : ∀ a ∈ l, p a = true → key a = k) : l.countP p ≤ 1 := by
  calc l.countP p ≤ l.countP (fun a => key a = k) :=
        countP_mono_left fun a ha h => by simpa using hp a ha h
    _ = (l.map key).count k := by
        rw [List.count, countP_map]
        rfl
    _ ≤ 1 := nodup_iff_count_le_one.1 hl k

def insert (t : Table key) (a : α) : Table key :=
  if h : t.find (key a) = none then
    ⟨t.rows ++ [a], by
      rw [map_append, nodup_append]
      refine ⟨t.nodup, nodup_singleton _, ?_⟩
      rintro _ hmem _ ha rfl
      obtain ⟨b, hb, rfl⟩ := mem_map.1 hmem
      have hk : key b = key a := mem_singleton.1 ha
      have hf := find_of_mem hb
      rw [hk, h] at hf
      exact absurd hf (by simp)⟩
  else t

theorem find_insert_self (h : t.find (key a) = none) :
    (t.insert a).find (key a) = some a := by
  have h' := h
  unfold find at h'
  rw [insert, dif_pos h]
  simp [find, find?_append, h']

theorem find_insert_of_ne (t : Table key) (h : k ≠ key a) :
    (t.insert a).find k = t.find k := by
  unfold insert
  split_ifs
  · simp [find, find?_append, h.symm]
  · rfl

theorem find_insert_of_some (h : t.find k = some r) (a : α) :
    (t.insert a).find k = some r := by
  unfold insert
  split_ifs with hnone
  · have hk : k ≠ key a := by
      rintro rfl
      rw [hnone] at h
      cases h
    have := find_insert_of_ne t hk
    rwa [insert, dif_pos hnone, h] at this
  · exact h

theorem mem_insert (h : r ∈ (t.insert a).rows) :
    r ∈ t.rows ∨ r = a := by
  unfold insert at h
  split_ifs at h
  · simpa using h
  · exact .inl h

theorem mem_insert_of_mem (h : r ∈ t.rows) (a : α) :
    r ∈ (t.insert a).rows := by
  unfold insert
  split_ifs
  · exact mem_append_left _ h
  · exact h

theorem mem_insert_iff (h : t.find (key a) = none) :
    r ∈ (t.insert a).rows ↔ r ∈ t.rows ∨ r = a := by
  rw [insert, dif_pos h]
  simp

def erase (t : Table key) (k : κ) : Table key :=
  ⟨t.rows.filter fun a => key a ≠ k, t.nodup.sublist (filter_sublist.map key)⟩

theorem mem_erase :
    a ∈ (t.erase k).rows ↔ a ∈ t.rows ∧ key a ≠ k := by
  simp [erase]

theorem find_erase_of_ne (t : Table key) {k' : κ} (h : k' ≠ k) :
    (t.erase k).find k' = t.find k' := by
  rcases hf : t.find k' with _ | a
  · refine find?_eq_none.2 fun a ha => ?_
    exact find?_eq_none.1 hf a (mem_erase.1 ha).1
  · have hkey := key_of_find hf
    have ha : a ∈ (t.erase k).rows := mem_erase.2 ⟨mem_of_find hf, by rw [hkey]; exact h⟩
    rw [← hkey]
    exact find_of_mem ha

def filter (t : Table key) (p : α → Bool) : Table key :=
  ⟨t.rows.filter p, t.nodup.sublist (filter_sublist.map key)⟩

omit [DecidableEq κ] in
theorem mem_filter :
    a ∈ (t.filter p).rows ↔ a ∈ t.rows ∧ p a = true := by
  simp [filter]

/-- Some rows inserted one after the other; one whose key is taken is left out. -/
def insertAll (t : Table key) (rows : List α) : Table key := rows.foldl insert t

/-- Where the key of an inserted row tells which row it is, all of them are there afterwards. -/
theorem mem_insertAll : ∀ {rows : List α} {t : Table key},
    (∀ a ∈ rows, ∀ b, b ∈ t.rows ∨ b ∈ rows → key a = key b → a = b) →
    (r ∈ (t.insertAll rows).rows ↔ r ∈ t.rows ∨ r ∈ rows)
  | [], t, _ => by simp [insertAll]
  | a :: rows, t, h => by
    have hinsert : ∀ b, b ∈ (t.insert a).rows ↔ b ∈ t.rows ∨ b = a := by
      intro b
      rcases hf : t.find (key a) with _ | c
      · exact mem_insert_iff hf
      · have hca : a = c :=
          h a mem_cons_self c (.inl (mem_of_find hf)) (key_of_find hf).symm
        refine ⟨mem_insert, ?_⟩
        rintro (hb | rfl)
        · exact mem_insert_of_mem hb a
        · exact mem_insert_of_mem (hca ▸ mem_of_find hf) b
    have hlater : ∀ x ∈ rows, ∀ b, b ∈ (t.insert a).rows ∨ b ∈ rows → key x = key b → x = b := by
      intro x hx b hb
      refine h x (mem_cons_of_mem _ hx) b ?_
      rcases hb with hb | hb
      · rcases (hinsert b).1 hb with hb | rfl
        · exact .inl hb
        · exact .inr mem_cons_self
      · exact .inr (mem_cons_of_mem _ hb)
    rw [insertAll, foldl_cons, ← insertAll, mem_insertAll hlater, hinsert, mem_cons,
      or_assoc]

/-- The key the next row of a numbered table gets. -/
def nextId {id : α → ℕ} (t : Table id) : ℕ := (t.rows.map id).foldr max 0 + 1

theorem le_foldr_max : ∀ {l : List ℕ} {n : ℕ}, n ∈ l → n ≤ l.foldr max 0
  | m :: l, n, h => by
    rw [foldr_cons]
    rcases mem_cons.1 h with rfl | h
    · exact le_max_left _ _
    · exact (le_foldr_max h).trans (le_max_right _ _)

theorem find_nextId {id : α → ℕ} (t : Table id) : t.find t.nextId = none := by
  rw [find, find?_eq_none]
  intro a ha
  have hle : id a ≤ (t.rows.map id).foldr max 0 := le_foldr_max (mem_map_of_mem ha)
  intro hkey
  have hnext : id a = t.nextId := of_decide_eq_true hkey
  rw [nextId] at hnext
  omega

/-- A column added up over the rows. -/
def total (m : α → ℤ) (t : Table key) : ℤ := (t.rows.map m).sum

omit [DecidableEq κ] in
theorem total_add (m m' : α → ℤ) (t : Table key) :
    t.total (fun a => m a + m' a) = t.total m + t.total m' := by
  simp [total, sum_map_add]

omit [DecidableEq κ] in
theorem total_map (m : α → ℤ) (t : Table key) (f : α → α) (hf : ∀ a, key (f a) = key a) :
    (t.map f hf).total m = t.total (fun a => m (f a)) := by
  simp [total, map, map_map, Function.comp_def]

omit [DecidableEq κ] in
theorem total_congr {m' : α → ℤ} (h : ∀ a ∈ t.rows, m a = m' a) :
    t.total m = t.total m' := by
  rw [total, total, map_congr_left h]

omit [DecidableEq κ] in
theorem total_eq_zero (h : ∀ a ∈ t.rows, m a = 0) :
    t.total m = 0 := by
  exact sum_eq_zero (by simpa using h)

omit [DecidableEq κ] in
/-- Where no row counts against the others, none is above the total. -/
theorem le_total (h : ∀ a ∈ t.rows, 0 ≤ m a)
    (ha : a ∈ t.rows) : m a ≤ t.total m :=
  single_le_sum (by simpa using h) _ (mem_map_of_mem ha)

theorem total_put (m : α → ℤ) (h : t.find (key a) = some r) :
    (t.put a).total m = t.total m + (m a - m r) := by
  obtain ⟨l, l', hrows⟩ := append_of_mem (mem_of_find h)
  have hr := key_of_find h
  have hn := t.nodup
  rw [hrows, map_append, map_cons, nodup_append, nodup_cons] at hn
  have hkeep : ∀ x ∈ l ++ l', m (if key x = key a then a else x) = m x := by
    intro x hx
    rw [if_neg]
    rintro hk
    rcases mem_append.1 hx with hx | hx
    · exact hn.2.2 _ (mem_map_of_mem hx) _ mem_cons_self (hk.trans hr.symm)
    · exact hn.2.1.1 (by rw [hr, ← hk]; exact mem_map_of_mem hx)
  rw [put, total_map, total, total, hrows]
  simp only [map_append, map_cons, sum_append, sum_cons, hr, if_true]
  rw [map_congr_left fun x hx => hkeep x (mem_append_left _ hx),
    map_congr_left fun x hx => hkeep x (mem_append_right _ hx)]
  omega

theorem total_insert (m : α → ℤ) (h : t.find (key a) = none) :
    (t.insert a).total m = t.total m + m a := by
  rw [insert, dif_pos h]
  simp [total]

def matches? (t : Table key) (a : α) (p : α → Bool) : Bool := (t.find (key a)).any p

/-- The conditional overwrite: the row with the key of `a` becomes `a` where it passes `p`. The
flag says whether a row was affected. -/
def cas (t : Table key) (a : α) (p : α → Bool) : Table key × Bool :=
  if t.matches? a p then (t.put a, true) else (t, false)

theorem cas_won (h : (t.cas a p).2 = true) :
    (t.cas a p).1 = t.put a ∧ ∃ r, t.find (key a) = some r ∧ p r = true := by
  unfold cas at h ⊢
  split_ifs at h ⊢ with hm
  refine ⟨rfl, ?_⟩
  simpa [matches?, Option.any_eq_true] using hm

theorem cas_lost (h : (t.cas a p).2 = false) :
    (t.cas a p).1 = t := by
  unfold cas at h ⊢
  split_ifs at h ⊢
  rfl

end Table

end AggreApi
