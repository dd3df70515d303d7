import Mathlib

/-!
# Sliding windows

A log of times, newest first, and what is kept of it. Whether `n` entries of the log are in the
window can be read off what is kept (`Recent.le_count_iff`), and a log that grows only while fewer
are stays bounded (`bounded_cons_iff`).
-/

namespace AggreApi.Window

open List

/-- How many entries of a log are less than `width` old. -/
def count (width now : ℤ) (log : List ℤ) : ℕ := log.countP fun t => now - t < width

/-- No half-open window holds more than `n` entries of the log. -/
def Bounded (n : ℕ) (width : ℤ) (log : List ℤ) : Prop :=
  ∀ w, log.countP (fun t => w ≤ t ∧ t < w + width) ≤ n

/-- What is kept of a log for windows of `n` entries. -/
structure Recent (n : ℕ) (width now : ℤ) (log kept : List ℤ) : Prop where
  initial : kept <+: log
  cut : kept.length < n → ∀ t ∈ log.drop kept.length, width ≤ now - t
  sorted : log.Pairwise (· ≥ ·)
  past : ∀ t ∈ log, t ≤ now

variable {n : ℕ} {width now : ℤ} {log kept : List ℤ}

theorem count_cons (t : ℤ) :
    count width now (t :: log) = count width now log + if now - t < width then 1 else 0 := by
  simp [count, countP_cons]

theorem count_of_stale (h : ∀ t ∈ log, width ≤ now - t) : count width now log = 0 := by
  rw [count, countP_eq_zero]
  intro t ht hfresh
  have := h t ht
  have := of_decide_eq_true hfresh
  omega

/-- In a log that is newest first, the entries of the window come first. -/
theorem lt_count_iff : ∀ {log : List ℤ} (m : ℕ), log.Pairwise (· ≥ ·) →
    (m < count width now log ↔ ∃ t, log[m]? = some t ∧ now - t < width)
  | [], m, _ => by simp [count]
  | a :: log, m, hs => by
    obtain ⟨ha, hs⟩ := pairwise_cons.1 hs
    rw [count_cons]
    by_cases hfresh : now - a < width
    · rw [if_pos hfresh]
      cases m with
      | zero => simpa using hfresh
      | succ m => simpa using lt_count_iff m hs
    · rw [if_neg hfresh]
      have hstale : ∀ t ∈ log, width ≤ now - t := fun t ht => by
        have := ha t ht
        omega
      rw [count_of_stale hstale]
      refine ⟨fun h => absurd h (by omega), ?_⟩
      rintro ⟨t, ht, hlt⟩
      rcases mem_cons.1 (mem_of_getElem? ht) with rfl | hmem
      · exact absurd hlt hfresh
      · have := hstale t hmem
        omega

theorem bounded_nil : Bounded n width [] := fun _ => Nat.zero_le _

/-- A log stays bounded exactly where it grows while the window has room. -/
theorem bounded_cons_iff (hw : 0 < width) (hpast : ∀ t ∈ log, t ≤ now)
    (h : Bounded n width log) : Bounded n width (now :: log) ↔ count width now log < n := by
  constructor
  · intro hb
    have hle := hb (now - width + 1)
    have hcount : count width now log =
        log.countP (fun t => now - width + 1 ≤ t ∧ t < now - width + 1 + width) := by
      refine countP_congr fun t ht => ?_
      have := hpast t ht
      simp only [decide_eq_true_eq]
      omega
    rw [countP_cons_of_pos (by simp only [decide_eq_true_eq]; omega), ← hcount] at hle
    omega
  · intro hlt w
    rw [countP_cons]
    split_ifs with hin
    · simp only [decide_eq_true_eq] at hin
      have hsub : log.countP (fun t => w ≤ t ∧ t < w + width) ≤ count width now log :=
        countP_mono_left fun t _ ht => by
          simp only [decide_eq_true_eq] at ht ⊢
          omega
      omega
    · exact h w

namespace Recent

theorem nil : Recent n width now [] [] where
  initial := prefix_rfl
  cut := by simp
  sorted := List.Pairwise.nil
  past := by simp

theorem later {now' : ℤ} (h : Recent n width now log kept) (hle : now ≤ now') :
    Recent n width now' log kept where
  initial := h.initial
  cut hlen t ht := by
    have := h.cut hlen t ht
    omega
  sorted := h.sorted
  past t ht := (h.past t ht).trans hle

theorem push (h : Recent n width now log kept) :
    Recent n width now (now :: log) (now :: kept) where
  initial := cons_prefix_cons.2 ⟨rfl, h.initial⟩
  cut hlen t ht := h.cut (by simp only [length_cons] at hlen; omega) t ht
  sorted := pairwise_cons.2 ⟨h.past, h.sorted⟩
  past t ht := by
    rcases mem_cons.1 ht with rfl | ht
    · exact le_rfl
    · exact h.past t ht

theorem take (h : Recent n width now log kept) : Recent n width now log (kept.take n) where
  initial := (List.take_prefix n kept).trans h.initial
  cut hlen t ht := by
    have hshort : kept.length < n := by
      rw [length_take] at hlen
      omega
    rw [take_of_length_le hshort.le] at ht
    exact h.cut hshort t ht
  sorted := h.sorted
  past := h.past

/-- Once the newest entry kept has left the window, so has the whole log. -/
theorem stale (h : Recent n width now log kept) (hn : 0 < n)
    (hkept : ∀ t ∈ kept.head?, width ≤ now - t) : ∀ t ∈ log, width ≤ now - t := by
  intro t ht
  cases kept with
  | nil => exact h.cut hn t ht
  | cons a kept =>
    obtain ⟨rest, rfl⟩ := h.initial
    have ha : width ≤ now - a := hkept a rfl
    rcases mem_cons.1 ht with rfl | ht
    · exact ha
    · have := (pairwise_cons.1 h.sorted).1 t ht
      omega

theorem clear (h : Recent n width now log kept) (hn : 0 < n)
    (hkept : ∀ t ∈ kept.head?, width ≤ now - t) : Recent n width now log [] where
  initial := nil_prefix
  cut _ t ht := h.stale hn hkept t ht
  sorted := h.sorted
  past := h.past

/-- What is kept has `n` entries in the window exactly when the log has. -/
theorem le_count_iff (h : Recent n width now log kept) (hn : 0 < n) :
    n ≤ count width now kept ↔ n ≤ count width now log := by
  obtain ⟨rest, rfl⟩ := h.initial
  obtain ⟨m, rfl⟩ : ∃ m, n = m + 1 := ⟨n - 1, by omega⟩
  have hsorted := (pairwise_append.1 h.sorted).1
  rw [Nat.succ_le_iff, Nat.succ_le_iff, lt_count_iff m hsorted, lt_count_iff m h.sorted]
  by_cases hm : m < kept.length
  · rw [getElem?_append_left hm]
  · rw [getElem?_eq_none (by omega)]
    constructor
    · rintro ⟨t, ht, -⟩
      cases ht
    · rintro ⟨t, ht, hlt⟩
      rw [getElem?_append_right (by omega)] at ht
      have := h.cut (by omega) t (by simpa using mem_of_getElem? ht)
      omega

/-- Where no more than `n` entries are kept, the window is full exactly when `n` are kept and the
oldest of them is in it. -/
theorem full_iff (h : Recent n width now log kept) (hn : 0 < n) (hlen : kept.length ≤ n) :
    n ≤ count width now log ↔
      n ≤ kept.length ∧ ∃ t, kept.getLast? = some t ∧ now - t < width := by
  obtain ⟨m, rfl⟩ : ∃ m, n = m + 1 := ⟨n - 1, by omega⟩
  rw [← h.le_count_iff hn, Nat.succ_le_iff,
    lt_count_iff m (h.sorted.sublist h.initial.sublist), getLast?_eq_getElem?]
  constructor
  · rintro ⟨t, ht, hlt⟩
    have hm : m + 1 = kept.length := by
      have := (List.getElem?_eq_some_iff.1 ht).1
      omega
    exact ⟨hm.le, t, by rwa [← hm], hlt⟩
  · rintro ⟨hle, t, ht, hlt⟩
    exact ⟨t, by rwa [show kept.length - 1 = m by omega] at ht, hlt⟩

end Recent

end AggreApi.Window
