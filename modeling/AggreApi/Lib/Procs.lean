import Mathlib

/-!
# Processes in flight

The processes of a system as a list, each known by its position. One that moves on is overwritten in
place, new ones are appended, none is ever removed.
-/

namespace AggreApi

open List

variable {α : Type*}

variable {l : List α} {k j : ℕ} {w w' : α}

/-- A process after one of them moved on: the one that did, or one that stood there before. -/
theorem getElem?_set_cases (h : (l.set k w')[j]? = some w) :
    j = k ∧ w = w' ∨ j ≠ k ∧ l[j]? = some w := by
  rw [getElem?_set] at h
  split_ifs at h with hk hl
  · exact .inl ⟨hk.symm, by simpa using h.symm⟩
  · exact .inr ⟨fun hj => hk hj.symm, h⟩

/-- A process after some were started: one that stood there before, or one of the new ones. -/
theorem getElem?_append_cases {m : List α} (h : (l ++ m)[j]? = some w) :
    l[j]? = some w ∨ w ∈ m := by
  rw [getElem?_append] at h
  split_ifs at h
  · exact .inl h
  · exact .inr (mem_of_getElem? h)

/-- No two processes hold the same thing. -/
def Exclusive {β : Type*} (holds : α → β → Prop) (l : List α) : Prop :=
  ∀ (i j : ℕ) (a b : α), i ≠ j → l[i]? = some a → l[j]? = some b → ∀ x, holds a x → ¬holds b x

/-- That stays so where the process that moves on takes only what no other holds. -/
theorem Exclusive.set {β : Type*} {holds : α → β → Prop}
    (h : Exclusive holds l) (hk : l[k]? = some w)
    (hg : ∀ x, holds w' x → holds w x ∨ ∀ b ∈ l.eraseIdx k, ¬holds b x) :
    Exclusive holds (l.set k w') := by
  have hfree : ∀ (j : ℕ) (b : α), j ≠ k → l[j]? = some b → ∀ x, holds w' x → ¬holds b x := by
    intro j b hj hb x hx
    rcases hg x hx with hold | hfree
    · exact h k j w b hj.symm hk hb x hold
    · exact hfree b (mem_eraseIdx_iff_getElem?.2 ⟨j, hj, hb⟩)
  intro i j a b hij hi hj x ha hb
  rcases getElem?_set_cases hi with ⟨rfl, rfl⟩ | ⟨hik, hi'⟩ <;>
    rcases getElem?_set_cases hj with ⟨rfl, rfl⟩ | ⟨hjk, hj'⟩
  · exact hij rfl
  · exact hfree j b hjk hj' x ha hb
  · exact hfree i a hik hi' x hb ha
  · exact h i j a b hij hi' hj' x ha hb

/-- Where no two processes with a property have the same value, there are at most as many of them as
values. -/
theorem Exclusive.countP_le {β : Type*} [DecidableEq β] {f : α → β} {p : α → Bool} {S : Finset β}
    (h : Exclusive (fun a x => f a = x ∧ p a = true) l) (hS : ∀ a ∈ l, p a = true → f a ∈ S) :
    l.countP p ≤ S.card := by
  have hnodup : ((l.filter p).map f).Nodup := by
    rw [Nodup, pairwise_map, pairwise_filter, pairwise_iff_getElem]
    intro i j hi hj hij ha hb heq
    exact h i j _ _ hij.ne (getElem?_eq_getElem hi) (getElem?_eq_getElem hj) _ ⟨rfl, ha⟩
      ⟨heq.symm, hb⟩
  rw [countP_eq_length_filter, ← length_map f, ← toFinset_card_of_nodup hnodup]
  refine Finset.card_le_card fun x hx => ?_
  obtain ⟨a, ha, rfl⟩ := mem_map.1 (mem_toFinset.1 hx)
  exact hS a (mem_of_mem_filter ha) (of_mem_filter ha)

/-- How many processes have a property after one of them moved on. -/
theorem countP_set_add (w' : α) (p : α → Bool)
    (h : l[k]? = some w) :
    (l.set k w').countP p + (if p w then 1 else 0) = l.countP p + if p w' then 1 else 0 := by
  obtain ⟨hl, rfl⟩ := List.getElem?_eq_some_iff.1 h
  rw [countP_set hl]
  have : (if p l[k] then 1 else 0) ≤ l.countP p := by
    split_ifs with hp
    · exact countP_pos_iff.2 ⟨_, getElem_mem hl, hp⟩
    · exact Nat.zero_le _
  omega

/-- What the processes amount to after one of them moved on. -/
theorem sum_map_set {M : Type*} [AddCommGroup M] (w' : α) (f : α → M) (h : l[k]? = some w) :
    ((l.set k w').map f).sum = (l.map f).sum + (f w' - f w) := by
  obtain ⟨hl, rfl⟩ := List.getElem?_eq_some_iff.1 h
  rw [map_set, sum_set', dif_pos (by simpa using hl), getElem_map, neg_add_eq_sub]

/-- A sum in which at most one entry counts, and that one with nothing or with `q`. -/
theorem sum_map_of_countP_le_one {p : α → Bool} {f : α → ℤ} {q : ℤ} : ∀ {l : List α},
    l.countP p ≤ 1 → (∀ x ∈ l, p x = false → f x = 0) → (∀ x ∈ l, f x = 0 ∨ f x = q) →
    (l.map f).sum = 0 ∨ (l.map f).sum = q ∧ 0 < l.countP p
  | [], _, _, _ => .inl rfl
  | x :: l, hc, h0, hq => by
    rw [countP_cons] at hc ⊢
    rw [map_cons, sum_cons]
    have ih := sum_map_of_countP_le_one (l := l) (by omega)
      (fun y hy => h0 y (mem_cons_of_mem _ hy)) fun y hy => hq y (mem_cons_of_mem _ hy)
    cases hx : p x with
    | false =>
      rw [h0 x mem_cons_self hx, zero_add]
      exact ih.imp_right fun h => ⟨h.1, by omega⟩
    | true =>
      rw [hx, if_pos rfl] at hc
      have hl : (l.map f).sum = 0 := ih.resolve_right fun h => by omega
      rw [hl, add_zero]
      exact (hq x mem_cons_self).imp_right fun h => ⟨h, by simp⟩

end AggreApi
