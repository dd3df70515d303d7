import Mathlib

/-!
# Texts put together from fragments

A text is the fragments it was cut into, joined. Several texts that grow side by side are the
entries of a list with keys: `alterKey` changes the entry that has the key of a fragment.
-/

namespace AggreApi

open List String

section join

variable {α : Type*} {f g : α → String}

theorem join_eq_empty_iff : ∀ {l : List String}, String.join l = "" ↔ ∀ s ∈ l, s = ""
  | [] => by simp
  | s :: l => by
    rw [String.join_cons, List.forall_mem_cons, ← join_eq_empty_iff, ← String.length_eq_zero_iff,
      String.length_append, Nat.add_eq_zero_iff, String.length_eq_zero_iff,
      String.length_eq_zero_iff]

theorem length_join_map_le : ∀ {l : List α}, (∀ a ∈ l, f a = g a ∨ f a = "") →
    (String.join (l.map f)).length ≤ (String.join (l.map g)).length
  | [], _ => le_rfl
  | a :: l, h => by
    obtain ⟨ha, hl⟩ := forall_mem_cons.1 h
    have hle := length_join_map_le hl
    simp only [List.map_cons, String.join_cons, String.length_append]
    rcases ha with ha | ha
    · rw [ha]
      omega
    · rw [ha, String.length_empty]
      omega

/-- Where each fragment is kept or lost, the text is kept exactly when every fragment is. -/
theorem join_map_eq_iff : ∀ {l : List α}, (∀ a ∈ l, f a = g a ∨ f a = "") →
    (String.join (l.map f) = String.join (l.map g) ↔ ∀ a ∈ l, f a = g a)
  | [], _ => by simp
  | a :: l, h => by
    obtain ⟨ha, hl⟩ := forall_mem_cons.1 h
    rw [forall_mem_cons, ← join_map_eq_iff hl, map_cons, map_cons, join_cons,
      join_cons]
    by_cases hfg : f a = g a
    · rw [hfg, String.append_right_inj, and_iff_right rfl]
    · refine iff_of_false (fun heq => ?_) fun heq => hfg heq.1
      have hf := ha.resolve_left hfg
      have hle := length_join_map_le hl
      have hlen := congrArg String.length heq
      rw [String.length_append, String.length_append, hf, String.length_empty] at hlen
      have hg : (g a).length = 0 := by omega
      rw [hf, String.length_eq_zero_iff.1 hg] at hfg
      exact hfg rfl

end join

section keyed

variable {κ α : Type*} [DecidableEq κ] {k : κ} {f : α → α}

/-- The first entry with the key `k` changed by `f`. -/
def alterKey (k : κ) (f : α → α) : List (κ × α) → List (κ × α)
  | [] => []
  | e :: l => if e.1 = k then (e.1, f e.2) :: l else e :: alterKey k f l

theorem map_fst_alterKey : ∀ l : List (κ × α), (alterKey k f l).map Prod.fst = l.map Prod.fst
  | [] => rfl
  | e :: l => by
    rw [alterKey]
    split_ifs
    · rfl
    · rw [map_cons, map_cons, map_fst_alterKey l]

theorem map_snd_alterKey : ∀ l : List (κ × α),
    (alterKey k f l).map Prod.snd = (l.map Prod.snd).modify ((l.map Prod.fst).idxOf k) f
  | [] => rfl
  | e :: l => by
    rw [alterKey, map_cons, map_cons]
    by_cases h : e.1 = k
    · simp [h]
    · rw [idxOf_cons_ne _ h, if_neg h, map_cons, map_snd_alterKey l,
        modify_succ_cons]

theorem alterKey_of_fixed (h : ∀ a, f a = a) : ∀ l : List (κ × α), alterKey k f l = l
  | [] => rfl
  | e :: l => by
    rw [alterKey, h, alterKey_of_fixed h l, ite_self]

theorem alterKey_append_of_notMem {l : List (κ × α)} (h : k ∉ l.map Prod.fst)
    (l' : List (κ × α)) : alterKey k f (l ++ l') = l ++ alterKey k f l' := by
  induction l with
  | nil => rfl
  | cons e l ih =>
    rw [map_cons, mem_cons, not_or] at h
    rw [cons_append, alterKey, if_neg (Ne.symm h.1), ih h.2, cons_append]

theorem alterKey_of_notMem {l : List (κ × α)} (h : k ∉ l.map Prod.fst) : alterKey k f l = l := by
  have happend := alterKey_append_of_notMem (f := f) h []
  rwa [append_nil, alterKey, append_nil] at happend

theorem alterKey_concat {l : List (κ × α)} (h : k ∉ l.map Prod.fst) (a : α) :
    alterKey k f (l ++ [(k, a)]) = l ++ [(k, f a)] := by
  rw [alterKey_append_of_notMem h, alterKey, if_pos rfl]

/-- A sum over the entries grows with the one that is changed. -/
theorem sum_map_modify {w : α → ℕ} {d : ℕ} (h : ∀ a, w (f a) = w a + d) :
    ∀ (l : List α) (i : ℕ), ((l.modify i f).map w).sum =
      (l.map w).sum + if i < l.length then d else 0
  | [], i => by simp
  | a :: l, 0 => by
    simp [h]
    omega
  | a :: l, i + 1 => by
    simp [sum_map_modify h l i]
    omega

end keyed

end AggreApi
