import Mathlib

/-!
# Infixes, separators and replacement

Where an infix of a separated list can lie, and the replacement of all occurrences of an infix.
-/

namespace AggreApi

open List

section separators
variable {α : Type*} {c : α} {p xs ys : List α} {ls : List (List α)}

/-- An infix without the separator lies on one side of it. -/
theorem infix_of_infix_append_cons (hc : c ∉ p) (h : p <:+: xs ++ c :: ys) :
    p <:+: xs ∨ p <:+: ys := by
  rw [infix_append_iff] at h
  rcases h with h | h | ⟨l, r, rfl, hl, hr⟩
  · exact .inl h
  · rw [infix_cons_iff] at h
    rcases h with h | h
    · cases p with
      | nil => exact .inl nil_infix
      | cons a p =>
        rw [cons_prefix_cons] at h
        exact absurd (by simp [h.1]) hc
    · exact .inr h
  · cases r with
    | nil =>
      rw [append_nil]
      exact .inl hl.isInfix
    | cons a r =>
      rw [cons_prefix_cons] at hr
      exact absurd (by simp [hr.1]) hc

theorem infix_of_infix_intercalate (hc : c ∉ p) (hp : p ≠ []) :
    ∀ {ls : List (List α)}, p <:+: [c].intercalate ls → ∃ l ∈ ls, p <:+: l
  | [], h => absurd (infix_nil.1 h) hp
  | [l], h => ⟨l, by simp, by simpa using h⟩
  | l :: l' :: ls, h => by
    rw [intercalate_cons_cons, append_assoc, singleton_append] at h
    rcases infix_of_infix_append_cons hc h with h | h
    · exact ⟨l, by simp, h⟩
    · obtain ⟨m, hm, h⟩ := infix_of_infix_intercalate hc hp h
      exact ⟨m, mem_cons_of_mem _ hm, h⟩

theorem infix_intercalate_of_mem {sep : List α} :
    ∀ {ls : List (List α)} {l : List α}, l ∈ ls → l <:+: sep.intercalate ls
  | [m], l, h => by
    rw [mem_singleton.1 h]
    simp
  | m :: m' :: ls, l, h => by
    rw [intercalate_cons_cons]
    rcases mem_cons.1 h with rfl | h
    · exact (prefix_append _ _).isInfix.trans (prefix_append _ _).isInfix
    · exact (infix_intercalate_of_mem h).trans (suffix_append _ _).isInfix

theorem infix_of_mem_splitOn [DecidableEq α] {l : List α} (h : l ∈ xs.splitOn c) : l <:+: xs := by
  have hin : l <:+: [c].intercalate (xs.splitOn c) := infix_intercalate_of_mem h
  rwa [intercalate_splitOn] at hin

end separators

section replacement
variable {α : Type*} [DecidableEq α]

/-- The list with every occurrence of `old` replaced, from the left and without overlaps; the
counter is what is left of an occurrence. -/
def replaceList (old new : List α) : ℕ → List α → List α
  | _, [] => []
  | k + 1, _ :: s => replaceList old new k s
  | 0, c :: s =>
    if old.isPrefixOf (c :: s) then new ++ replaceList old new (old.length - 1) s
    else c :: replaceList old new 0 s

/-- The number of occurrences that are replaced. -/
def occurrences (old : List α) : ℕ → List α → ℕ
  | _, [] => 0
  | k + 1, _ :: s => occurrences old k s
  | 0, c :: s =>
    if old.isPrefixOf (c :: s) then occurrences old (old.length - 1) s + 1
    else occurrences old 0 s

variable {old new : List α}

theorem replaceList_of_not_infix : ∀ {s : List α}, ¬ old <:+: s → replaceList old new 0 s = s
  | [], _ => rfl
  | c :: s, h => by
    rw [infix_cons_iff, not_or] at h
    rw [replaceList, if_neg (fun hp => h.1 (List.isPrefixOf_iff_prefix.1 hp)),
      replaceList_of_not_infix h.2]

theorem occurrences_pos : ∀ {s : List α}, old ≠ [] → old <:+: s → 0 < occurrences old 0 s
  | [], hold, h => absurd (infix_nil.1 h) hold
  | c :: s, hold, h => by
    rw [occurrences]
    split_ifs with hp
    · exact Nat.succ_pos _
    · rcases infix_cons_iff.1 h with h | h
      · exact absurd (List.isPrefixOf_iff_prefix.2 h) hp
      · exact occurrences_pos hold h

/-- Replacement moves the count of an element by what each occurrence loses and gains. -/
theorem count_replaceList (hold : old ≠ []) (a : α) : ∀ (k : ℕ) (s : List α),
    (replaceList old new k s).count a + occurrences old k s * old.count a =
      (s.drop k).count a + occurrences old k s * new.count a
  | k, [] => by simp [replaceList, occurrences]
  | k + 1, c :: s => by
    rw [replaceList, occurrences, drop_succ_cons]
    exact count_replaceList hold a k s
  | 0, c :: s => by
    rw [replaceList, occurrences, drop_zero]
    split_ifs with hp
    · have ih := count_replaceList hold a (old.length - 1) s
      have hs : c :: s = old ++ s.drop (old.length - 1) := by
        obtain ⟨d, old', rfl⟩ := exists_cons_of_ne_nil hold
        obtain ⟨t, ht⟩ := isPrefixOf_iff_prefix.1 hp
        simp only [cons_append, List.cons.injEq] at ht
        simp [← ht.1, ← ht.2]
      rw [hs, count_append, count_append, Nat.add_mul, Nat.add_mul]
      omega
    · have ih := count_replaceList hold a 0 s
      rw [drop_zero] at ih
      rw [count_cons, count_cons]
      omega

end replacement

end AggreApi
