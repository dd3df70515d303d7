import Mathlib

/-!
# Maps filled by a list of entries

`insertAll` puts entries into a map one after the other, the last one of a key winning.
-/

namespace AggreApi

open List AList

section dict
variable {α β : Type*} [DecidableEq α] {m m' : AList fun _ : α => β} {a a' : α} {b : β}
  {L : List (α × β)}

/-- Entries put into a map one after the other. -/
def insertAll (m : AList fun _ : α => β) (L : List (α × β)) : AList fun _ : α => β :=
  L.foldl (fun m e => m.insert e.1 e.2) m

theorem insertAll_cons (m : AList fun _ : α => β) (e : α × β) (L : List (α × β)) :
    insertAll m (e :: L) = insertAll (m.insert e.1 e.2) L := rfl

theorem mem_entries_insert {e : Σ _ : α, β} (h : e ∈ (m.insert a b).entries) :
    e = ⟨a, b⟩ ∨ e ∈ m.entries := by
  rw [entries_insert, mem_cons] at h
  exact h.imp_right fun h => (kerase_sublist a _).subset h

theorem mem_entries_erase {e : Σ _ : α, β} (h : e ∈ (m.erase a).entries) : e ∈ m.entries :=
  (kerase_sublist a _).subset h

theorem mem_entries_insertAll {e : Σ _ : α, β} : ∀ {L : List (α × β)} {m : AList fun _ : α => β},
    e ∈ (insertAll m L).entries → e ∈ m.entries ∨ (e.1, e.2) ∈ L
  | [], _, h => .inl h
  | x :: L, m, h => by
    rcases mem_entries_insertAll (m := m.insert x.1 x.2) h with h | h
    · rcases mem_entries_insert h with rfl | h
      · exact .inr (by simp)
      · exact .inl h
    · exact .inr (mem_cons_of_mem _ h)

theorem kerase_eq_filter : ∀ {l : List (Σ _ : α, β)}, l.NodupKeys →
    l.kerase a = l.filter fun e => decide (e.1 ≠ a)
  | [], _ => rfl
  | e :: l, h => by
    rw [nodupKeys_cons] at h
    by_cases he : a = e.1
    · rw [kerase_cons_eq he, filter_cons, if_neg (by simp [he]), filter_eq_self.2]
      intro x hx
      have hne : e.1 ∉ l.keys := h.1
      simp only [he, ne_eq, decide_not, Bool.not_eq_true', decide_eq_false_iff_not]
      intro hxe
      exact hne (hxe ▸ mem_keys_of_mem hx)
    · rw [kerase_cons_ne he, filter_cons, if_pos (by simpa using Ne.symm he),
        kerase_eq_filter h.2]

theorem entries_erase (m : AList fun _ : α => β) (a : α) :
    (m.erase a).entries = m.entries.filter fun e => decide (e.1 ≠ a) :=
  kerase_eq_filter m.nodupKeys

theorem erase_insert_self : (m.insert a b).erase a = m.erase a :=
  ext (kerase_cons_eq rfl)

theorem erase_insert_of_ne (h : a' ≠ a) : (m.insert a' b).erase a = (m.erase a).insert a' b := by
  refine ext ?_
  rw [entries_insert]
  exact (kerase_cons_ne h.symm).trans (congrArg (_ :: ·) (kerase_comm a' a m.entries))

theorem insert_eq_of_erase_eq (h : m.erase a = m'.erase a) : m.insert a b = m'.insert a b := by
  refine ext ?_
  rw [entries_insert, entries_insert]
  exact congrArg (_ :: ·) (congrArg entries h)

theorem erase_insertAll (a : α) : ∀ (L : List (α × β)) (m : AList fun _ : α => β),
    (insertAll m L).erase a = insertAll (m.erase a) (L.filter fun e => decide (e.1 ≠ a))
  | [], _ => rfl
  | e :: L, m => by
    rw [insertAll_cons, erase_insertAll a L, filter_cons]
    by_cases he : e.1 = a
    · rw [if_neg (by simpa using he), ← he, erase_insert_self]
    · rw [if_pos (by simpa using he), insertAll_cons, erase_insert_of_ne he]

theorem filterMap_erase {γ : Type*} {f : α → Option γ} (h : f a = none) :
    ∀ l : List α, (l.erase a).filterMap f = l.filterMap f
  | [] => rfl
  | x :: l => by
    by_cases hx : x = a
    · rw [hx, erase_cons_head, filterMap_cons_none h]
    · rw [erase_cons_tail (by simpa using hx), filterMap_cons, filterMap_cons,
        filterMap_erase h l]

theorem lookup_insertAll_of_notMem : ∀ {L : List (α × β)} {m : AList fun _ : α => β},
    a ∉ L.map Prod.fst → (insertAll m L).lookup a = m.lookup a
  | [], _, _ => rfl
  | e :: L, m, h => by
    rw [map_cons, mem_cons, not_or] at h
    rw [insertAll_cons, lookup_insertAll_of_notMem h.2, lookup_insert_ne h.1]

theorem lookup_insertAll_of_mem : ∀ {L : List (α × β)} {m : AList fun _ : α => β},
    (L.map Prod.fst).Nodup → (a, b) ∈ L → (insertAll m L).lookup a = some b
  | e :: L, m, hnd, h => by
    rw [map_cons, nodup_cons] at hnd
    rw [insertAll_cons]
    rcases mem_cons.1 h with rfl | h
    · rw [lookup_insertAll_of_notMem hnd.1, lookup_insert]
    · exact lookup_insertAll_of_mem hnd.2 h

end dict

end AggreApi
