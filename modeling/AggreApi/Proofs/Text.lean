import AggreApi.Lib.Infix
import AggreApi.Billing
import AggreApi.Channel

/-!
# Texts

The text functions of the source in terms of infixes and prefixes of lists of characters.
-/

namespace AggreApi

open String

variable {α : Type*}

theorem rdropWhile_dropWhile_fixed (p : α → Bool) (l : List α) :
    (l.dropWhile p |>.rdropWhile p).dropWhile p = (l.dropWhile p).rdropWhile p := by
  rw [List.dropWhile_eq_self_iff]
  intro hl
  have hpre := List.rdropWhile_prefix p (l.dropWhile p)
  have hlen : 0 < (l.dropWhile p).length := hl.trans_le hpre.length_le
  have hhead := List.dropWhile_eq_self_iff.1 (List.dropWhile_idempotent p l) hlen
  rwa [hpre.getElem hl]

theorem toList_trimSpace (s : String) :
    (trimSpace s).toList = (s.toList.dropWhile isSpace).rdropWhile isSpace := by
  simp [trimSpace, List.rdropWhile]

theorem trimSpace_trimSpace (s : String) : trimSpace (trimSpace s) = trimSpace s := by
  rw [← toList_inj, toList_trimSpace (trimSpace s), toList_trimSpace,
    rdropWhile_dropWhile_fixed, List.rdropWhile_idempotent]

theorem trimSpace_isInfix (s : String) : (trimSpace s).toList <:+: s.toList := by
  rw [toList_trimSpace]
  exact (List.rdropWhile_prefix _ _).isInfix.trans (List.dropWhile_suffix _).isInfix

theorem length_trimSpace_le (s : String) : (trimSpace s).length ≤ s.length := by
  rw [← length_toList, ← length_toList]
  exact (trimSpace_isInfix s).length_le

variable {s sub : String}

theorem contains_iff : contains s sub = true ↔ sub.toList <:+: s.toList := by
  simp only [contains, List.any_eq_true, List.mem_tails, List.isPrefixOf_iff_prefix,
    List.infix_iff_prefix_suffix]
  exact ⟨fun ⟨t, ht, hp⟩ => ⟨t, hp, ht⟩, fun ⟨t, hp, ht⟩ => ⟨t, ht, hp⟩⟩

theorem contains_eq_false_iff :
    contains s sub = false ↔ ¬ sub.toList <:+: s.toList := by
  rw [← contains_iff, Bool.not_eq_true]

variable {c : Char} {t : String}

theorem infix_of_mem_splitChar (h : t ∈ splitChar c s) :
    t.toList <:+: s.toList := by
  obtain ⟨l, hl, rfl⟩ := List.mem_map.1 h
  rw [toList_ofList]
  exact infix_of_mem_splitOn hl

theorem notMem_of_mem_splitOn [DecidableEq α] {c : α} : ∀ {xs l : List α},
    l ∈ xs.splitOn c → c ∉ l
  | [], l, h => by simp_all [List.splitOn]
  | x :: xs, l, h => by
    have ih := fun l (hl : l ∈ xs.splitOn c) => notMem_of_mem_splitOn hl
    rw [List.splitOn, List.splitOnP_cons_eq_if_modifyHead] at h
    split_ifs at h with hx
    · rcases List.mem_cons.1 h with rfl | h
      · exact List.not_mem_nil
      · exact ih l h
    · obtain ⟨m, ms, hms⟩ := List.exists_cons_of_ne_nil (List.splitOn_ne_nil c xs)
      rw [← List.splitOn, hms, List.modifyHead_cons, List.mem_cons] at h
      rw [hms] at ih
      rcases h with rfl | h
      · rw [List.mem_cons, not_or]
        exact ⟨fun he => hx (by simp [he]), ih m List.mem_cons_self⟩
      · exact ih l (List.mem_cons_of_mem _ h)

theorem notMem_of_mem_splitChar (h : t ∈ splitChar c s) :
    c ∉ t.toList := by
  obtain ⟨l, hl, rfl⟩ := List.mem_map.1 h
  rw [toList_ofList]
  exact notMem_of_mem_splitOn hl

theorem splitChar_intercalate {ks : List String} (hne : ks ≠ [])
    (h : ∀ k ∈ ks, '\n' ∉ k.toList) : splitChar '\n' ("\n".intercalate ks) = ks := by
  have hsplit : (['\n'].intercalate (ks.map String.toList)).splitOn '\n' = ks.map String.toList :=
    List.splitOn_intercalate '\n' (by simpa using h) (by simpa using hne)
  rw [splitChar, toList_intercalate]
  exact (congrArg _ hsplit).trans (by simp [List.map_map, Function.comp_def])

theorem intercalate_splitChar (s : String) : "\n".intercalate (splitChar '\n' s) = s := by
  rw [← String.toList_inj, String.toList_intercalate, splitChar, List.map_map]
  have hid : String.toList ∘ String.ofList = id := by
    funext l
    simp
  rw [hid, List.map_id]
  exact List.intercalate_splitOn '\n'

theorem length_intercalate_lines : ∀ {ks : List String}, ks ≠ [] →
    ("\n".intercalate ks).length + 1 = (ks.map String.length).sum + ks.length
  | [k], _ => by simp
  | k :: k' :: ks, _ => by
    have ih := length_intercalate_lines (List.cons_ne_nil k' ks)
    have hnl : "\n".length = 1 := rfl
    rw [← String.length_toList, String.toList_intercalate, List.map_cons, List.map_cons,
      List.intercalate_cons_cons, ← List.map_cons, ← String.toList_intercalate]
    simp only [List.length_append, String.length_toList, List.map_cons, List.sum_cons,
      List.length_cons] at ih ⊢
    omega

theorem trimSpace_ne_empty (hc : c ∈ s.toList)
    (hspace : isSpace c = false) :
    trimSpace s ≠ "" := by
  intro h
  rw [← toList_inj, toList_trimSpace, toList_empty, List.rdropWhile_eq_nil_iff] at h
  rw [← List.takeWhile_append_dropWhile (p := isSpace) (l := s.toList), List.mem_append] at hc
  rcases hc with hc | hc
  · exact absurd (List.mem_takeWhile_imp hc) (by simp [hspace])
  · exact absurd (h c hc) (by simp [hspace])

theorem notMem_toString_int (hdigit : c.isDigit = false) (hminus : c ≠ '-') (n : ℤ) :
    c ∉ (toString n).toList := by
  have hnat : ∀ m : ℕ, c ∉ m.repr.toList := by
    intro m hm
    rw [Nat.toList_repr] at hm
    exact absurd (Nat.isDigit_of_mem_toDigits (by decide) (by decide) hm) (by simp [hdigit])
  cases n with
  | ofNat m => exact hnat m
  | negSucc m =>
    have hneg : toString (Int.negSucc m) = "-" ++ (m + 1).repr := rfl
    rw [hneg, toList_append, List.mem_append, not_or]
    exact ⟨by simpa using hminus, hnat _⟩

end AggreApi
