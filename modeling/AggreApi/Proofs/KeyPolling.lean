import AggreApi.KeyPolling
import AggreApi.Proofs.KeyManagement

/-!
# A disabled key stays disabled

The polling index and the statuses of the keys are one column, and a request saves it whole, with
the statuses it loaded. So a key that was disabled in between is enabled again by that save.
-/

namespace AggreApi

open List ChannelStore

variable {ch : Channel} {key k : String}

namespace Channel

variable (unmarshalRaw : String → Option (List String))

/-- The key is disabled, wherever it stands in the list. -/
def KeyDisabled (ch : Channel) (k : String) : Prop :=
  ∀ i, (ch.getKeys unmarshalRaw)[i]? = some k → ch.keyEnabled i = false

variable {unmarshalRaw}

theorem getNextEnabledKey_enabled (hmulti : ch.channelInfo.isMultiKey = true)
    {d : KeyDraw} {pick : KeyPick} (h : ch.getNextEnabledKey unmarshalRaw d = .ok pick) :
    (ch.getKeys unmarshalRaw)[pick.index]? = some pick.key ∧ ch.keyEnabled pick.index = true := by
  have hpick : ∀ {idx : ℕ}, idx < (ch.getKeys unmarshalRaw).length →
      (ch.getKeys unmarshalRaw)[idx]? = some ((ch.getKeys unmarshalRaw).getD idx "") := by
    intro idx hlt
    rw [getElem?_eq_getElem hlt, getD_eq_getElem _ _ hlt]
  simp only [getNextEnabledKey, hmulti, Bool.not_true, Bool.false_eq_true, if_false] at h
  rcases hlist : (List.range (ch.getKeys unmarshalRaw).length).filter ch.keyEnabled with
    _ | ⟨first, rest⟩
  · simp [hlist] at h
  · have hmem : ∀ idx ∈ first :: rest,
        idx < (ch.getKeys unmarshalRaw).length ∧ ch.keyEnabled idx = true := by
      intro idx hidx
      rw [← hlist, mem_filter, mem_range] at hidx
      exact hidx
    have hfirst := hmem first mem_cons_self
    simp only [hlist] at h
    split at h
    · cases h
      have hdraw : d.draw % (rest.length + 1) < (first :: rest).length :=
        Nat.mod_lt _ (Nat.succ_pos _)
      have hin := hmem _ (getElem_mem hdraw)
      rw [getD_eq_getElem _ _ hdraw]
      exact ⟨hpick hin.1, hin.2⟩
    · split at h
      · cases h
      · split at h
        · rename_i idx hfind
          cases h
          obtain ⟨i, -, hi⟩ := mem_map.1 (mem_of_find?_eq_some hfind)
          refine ⟨hpick ?_, find?_some hfind⟩
          rw [← hi]
          exact Nat.mod_lt _ (Nat.zero_lt_of_lt hfirst.1)
        · cases h
          exact ⟨hpick hfirst.1, hfirst.2⟩
    · cases h
      exact ⟨hpick hfirst.1, hfirst.2⟩

/-- What no request and no call changes about the channel. -/
structure Copies (key : String) (ch : Channel) : Prop where
  text : ch.key = key
  unparsed : ch.keys = []
  multi : ch.channelInfo.isMultiKey = true

theorem Copies.getKeys (h : Copies key ch) :
    ch.getKeys unmarshalRaw = parsedKeys unmarshalRaw key := by
  rw [getKeys_eq_parsedKeys h.unparsed, h.text]

theorem Copies.withInfo {ch' : Channel} (h : Copies key ch)
    (h' : Copies key ch') : Copies key { ch with channelInfo := ch'.channelInfo } :=
  ⟨h.text, h.unparsed, h'.multi⟩

theorem Copies.withKey {ch' : Channel} (h : Copies key ch)
    (h' : Copies key ch') : Copies key { ch' with key := ch.key } :=
  ⟨h.text, h'.unparsed, h'.multi⟩

theorem copies_updatedRow (h : Copies key ch) (usingKey : String)
    (status : ChannelStatus) (reason : String) (now : ℤ) :
    Copies key (updatedRow unmarshalRaw ch usingKey status reason now) := by
  have hmulti : ∀ i, (updateKeyStatus ch.channelInfo i status reason now).isMultiKey =
      true := by
    intro i
    rw [updateKeyStatus]
    split_ifs
    · exact h.multi
    · exact h.multi
  simp only [updatedRow, if_pos h.multi, handlerMultiKeyUpdate]
  split
  · exact ⟨h.text, h.unparsed, h.multi⟩
  · split
    · exact ⟨h.text, h.unparsed, hmulti _⟩
    · exact ⟨h.text, h.unparsed, hmulti _⟩

theorem keyDisabled_updatedRow (h : Copies key ch)
    (hnodup : (parsedKeys unmarshalRaw key).Nodup) (usingKey : String) {status : ChannelStatus}
    (hst : status ≠ .enabled) (reason : String) (now : ℤ) :
    (updatedRow unmarshalRaw ch usingKey status reason now).KeyDisabled unmarshalRaw
      usingKey := by
  have hcopy : Copies key (updatedRow unmarshalRaw ch usingKey status reason now) :=
    copies_updatedRow h ..
  intro i hi
  rw [hcopy.getKeys] at hi
  obtain ⟨hlt, hget⟩ := List.getElem?_eq_some_iff.1 hi
  have hne : ch.getKeys unmarshalRaw ≠ [] := by
    rw [h.getKeys]
    exact ne_nil_of_length_pos (by omega)
  have hidx : keyIndex (ch.getKeys unmarshalRaw) usingKey = i := by
    rw [h.getKeys, keyIndex, if_pos (hget ▸ getElem_mem hlt), ← hget,
      hnodup.idxOf_getElem]
  have hinfo : (updatedRow unmarshalRaw ch usingKey status reason now).channelInfo =
      updateKeyStatus ch.channelInfo i status reason now := by
    rw [updatedRow, if_pos h.multi, handlerMultiKeyUpdate, if_neg hne,
      hidx]
    dsimp only
    split_ifs <;> rfl
  rw [keyEnabled, hinfo, updateKeyStatus, if_neg hst, AList.lookup_insert]
  simpa using hst

end Channel

namespace PollWorker

variable (unmarshalRaw : String → Option (List String))

/-- What a worker holds: copies of the channel, with the key disabled a call is to disable. -/
def Sound (key : String) : PollWorker → Prop
  | loaded ch => ch.Copies key
  | drawn ch _ => ch.Copies key
  | read _ ch => ch.Copies key
  | updated call ch =>
    ch.Copies key ∧ (call.status ≠ .enabled → ch.KeyDisabled unmarshalRaw call.usingKey)
  | _ => True

/-- What is about to be saved enables no key disabled in the row, but for the one enabled. -/
def Fresh (row : Channel) : PollWorker → Prop
  | drawn ch _ =>
    ∀ i < (row.getKeys unmarshalRaw).length, row.keyEnabled i = false → ch.keyEnabled i = false
  | updated call ch =>
    ∀ i < (row.getKeys unmarshalRaw).length, row.keyEnabled i = false → ch.keyEnabled i = false ∨
      call.status = .enabled ∧ (row.getKeys unmarshalRaw)[i]? = some call.usingKey
  | _ => True

instance (row : Channel) : ∀ w : PollWorker, Decidable (w.Fresh unmarshalRaw row)
  | drawn ch _ => inferInstanceAs (Decidable (∀ i < (row.getKeys unmarshalRaw).length,
      row.keyEnabled i = false → ch.keyEnabled i = false))
  | updated call ch => inferInstanceAs (Decidable (∀ i < (row.getKeys unmarshalRaw).length,
      row.keyEnabled i = false → ch.keyEnabled i = false ∨
        call.status = .enabled ∧ (row.getKeys unmarshalRaw)[i]? = some call.usingKey))
  | loading | loaded _ | given _ | calling _ | read _ _ | returned _ _ => isTrue trivial

def Enables (k : String) : PollWorker → Prop
  | updated call _ => call.status = .enabled ∧ call.usingKey = k
  | _ => False

instance (k : String) : ∀ w : PollWorker, Decidable (w.Enables k)
  | updated call _ => inferInstanceAs (Decidable (call.status = .enabled ∧ call.usingKey = k))
  | loading | loaded _ | drawn _ _ | given _ | calling _ | read _ _ | returned _ _ =>
    isFalse fun h => h

/-- A request that is not given the key, and will not be. -/
def Spares (k : String) : PollWorker → Prop
  | loaded ch => ch.channelInfo.isMultiKey = true ∧ ch.KeyDisabled unmarshalRaw k
  | drawn _ pick => pick.key ≠ k
  | given (.ok pick) => pick.key ≠ k
  | given (.error _) => True
  | _ => False

variable {unmarshalRaw} {key : String} {row : Channel} {locked : Bool} {m : PollMove}

theorem next_loaded (unmarshalRaw : String → Option (List String)) (row : Channel) (locked : Bool)
    (m : PollMove) (ch : Channel) :
    ∃ w, (loaded ch).next unmarshalRaw row locked m = (row, w) ∧
      (w = loaded ch ∨ (∃ e, w = given (.error e)) ∨
        ∃ pick, ch.getNextEnabledKey unmarshalRaw
            { draw := m.draw, cached := some row.channelInfo } = .ok pick ∧
          (w = given (.ok pick) ∨
            w = drawn { ch with channelInfo :=
              { ch.channelInfo with multiKeyPollingIndex := pick.pollingIndex } } pick)) := by
  simp only [next]
  split
  · exact ⟨_, rfl, .inl rfl⟩
  · split
    · rename_i e _
      exact ⟨_, rfl, .inr (.inl ⟨e, rfl⟩)⟩
    · rename_i pick hpick
      split
      · exact ⟨_, rfl, .inr (.inr ⟨pick, hpick, .inr rfl⟩)⟩
      · exact ⟨_, rfl, .inr (.inr ⟨pick, hpick, .inl rfl⟩)⟩

theorem next_sound (hnodup : (parsedKeys unmarshalRaw key).Nodup) (hrow : row.Copies key) :
    ∀ {w : PollWorker}, w.Sound unmarshalRaw key →
      (w.next unmarshalRaw row locked m).1.Copies key ∧
        (w.next unmarshalRaw row locked m).2.Sound unmarshalRaw key
  | loading, _ => ⟨hrow, hrow⟩
  | loaded ch, h => by
    obtain ⟨w, hnext, rfl | ⟨e, rfl⟩ | ⟨pick, -, rfl | rfl⟩⟩ :=
      next_loaded unmarshalRaw row locked m ch
    all_goals rw [hnext]
    · exact ⟨hrow, h⟩
    · exact ⟨hrow, trivial⟩
    · exact ⟨hrow, trivial⟩
    · exact ⟨hrow, h.text, h.unparsed, h.multi⟩
  | drawn ch pick, h => by
    rw [next]
    split_ifs
    · exact ⟨hrow.withInfo h, trivial⟩
    · exact ⟨hrow, trivial⟩
  | given _, _ => ⟨hrow, trivial⟩
  | calling call, _ => by
    rw [next]
    split_ifs
    · exact ⟨hrow, trivial⟩
    · exact ⟨hrow, hrow⟩
  | read call ch, h => by
    rw [next]
    split_ifs
    · exact ⟨hrow, h⟩
    · exact ⟨hrow, Channel.copies_updatedRow h .., fun hst =>
        Channel.keyDisabled_updatedRow h hnodup _ hst _ _⟩
  | updated call ch, h => by
    rw [next]
    split_ifs
    · exact ⟨hrow.withKey h.1, trivial⟩
    · exact ⟨hrow, trivial⟩
  | returned _ _, _ => ⟨hrow, trivial⟩

theorem next_keyDisabled (hrow : row.Copies key)
    (hk : row.KeyDisabled unmarshalRaw k) : ∀ {w : PollWorker}, w.Sound unmarshalRaw key →
    (m.ok = true → w.Fresh unmarshalRaw row ∧ ¬ w.Enables k) →
    (w.next unmarshalRaw row locked m).1.KeyDisabled unmarshalRaw k
  | loading, _, _ => hk
  | loaded ch, _, _ => by
    obtain ⟨w, hnext, -⟩ := next_loaded unmarshalRaw row locked m ch
    rw [hnext]
    exact hk
  | drawn ch pick, h, hok => by
    simp only [next]
    split_ifs with hm
    · intro i hi
      rw [(hrow.withInfo h).getKeys, ← hrow.getKeys] at hi
      exact (hok hm).1 i (List.getElem?_eq_some_iff.1 hi).1 (hk i hi)
    · exact hk
  | given _, _, _ => hk
  | calling _, _, _ => hk
  | read call ch, _, _ => by
    rw [next]
    split_ifs
    · exact hk
    · exact hk
  | updated call ch, h, hok => by
    rw [next]
    split_ifs with hm
    · intro i hi
      rw [(hrow.withKey h.1).getKeys, ← hrow.getKeys] at hi
      have hlt := (List.getElem?_eq_some_iff.1 hi).1
      refine ((hok hm).1 i hlt (hk i hi)).resolve_right fun hen => (hok hm).2 ⟨hen.1, ?_⟩
      rw [hi, Option.some.injEq] at hen
      exact hen.2.symm
    · exact hk
  | returned _ _, _, _ => hk

theorem next_spares {w : PollWorker} (h : w.Spares unmarshalRaw k) :
    (w.next unmarshalRaw row locked m).2.Spares unmarshalRaw k := by
  cases w with
  | loaded ch =>
    have hpick : ∀ {pick : KeyPick}, ch.getNextEnabledKey unmarshalRaw
        { draw := m.draw, cached := some row.channelInfo } = .ok pick → pick.key ≠ k := by
      rintro pick hpick rfl
      obtain ⟨hget, hen⟩ := Channel.getNextEnabledKey_enabled h.1 hpick
      rw [h.2 _ hget] at hen
      exact Bool.false_ne_true hen
    obtain ⟨w, hnext, rfl | ⟨e, rfl⟩ | ⟨pick, hdraw, rfl | rfl⟩⟩ :=
      next_loaded unmarshalRaw row locked m ch
    all_goals rw [hnext]
    · exact h
    · trivial
    · exact hpick hdraw
    · exact hpick hdraw
  | drawn => exact h
  | given => exact h
  | loading => exact h.elim
  | calling => exact h.elim
  | read => exact h.elim
  | updated => exact h.elim
  | returned => exact h.elim

def pick? : PollWorker → Option KeyPick
  | given (.ok pick) => some pick
  | _ => none

def returnedTrue : PollWorker → Bool
  | returned _ ok => ok
  | _ => false

end PollWorker

namespace PollState

variable (unmarshalRaw : String → Option (List String))

/-- The row and every copy of it have the keys of the channel. -/
structure Inv (key : String) (s : PollState) : Prop where
  row : s.row.Copies key
  workers : ∀ w ∈ s.workers, w.Sound unmarshalRaw key

/-- What a step saves is fresh. -/
def Fresh (s : PollState) : PollEvent → Prop
  | .move i m => ∀ w ∈ s.workers[i]?, m.ok = true → w.Fresh unmarshalRaw s.row
  | _ => True

instance (s : PollState) : ∀ e : PollEvent, Decidable (s.Fresh unmarshalRaw e)
  | .move i m => inferInstanceAs
      (Decidable (∀ w ∈ s.workers[i]?, m.ok = true → w.Fresh unmarshalRaw s.row))
  | .request | .call _ => isTrue trivial

/-- A step saves what a call enabling the key wrote. -/
def Enables (k : String) (s : PollState) : PollEvent → Prop
  | .move i m => ∃ w ∈ s.workers[i]?, m.ok = true ∧ w.Enables k
  | _ => False

instance (k : String) (s : PollState) : ∀ e : PollEvent, Decidable (s.Enables k e)
  | .move i m => inferInstanceAs (Decidable (∃ w ∈ s.workers[i]?, m.ok = true ∧ w.Enables k))
  | .request | .call _ => isFalse fun h => h

variable {unmarshalRaw} {key : String} {s : PollState}

theorem step_move {i : ℕ} {w : PollWorker} (h : s.workers[i]? = some w) (m : PollMove) :
    s.step unmarshalRaw (.move i m) =
      { row := (w.next unmarshalRaw s.row (s.workers.any PollWorker.locks) m).1
        workers := s.workers.set i
          (w.next unmarshalRaw s.row (s.workers.any PollWorker.locks) m).2 } := by
  simp [step, h]

theorem inv_step (hnodup : (parsedKeys unmarshalRaw key).Nodup) (h : Inv unmarshalRaw key s)
    (e : PollEvent) : Inv unmarshalRaw key (s.step unmarshalRaw e) := by
  cases e with
  | request | call c =>
    refine ⟨h.row, fun w hw => ?_⟩
    rcases mem_append.1 hw with hw | hw
    · exact h.workers w hw
    · rw [mem_singleton.1 hw]
      trivial
  | move i =>
    rcases hi : s.workers[i]? with _ | w
    · simp only [step, hi]
      exact h
    · rw [step_move hi]
      obtain ⟨hrow, hnext⟩ := PollWorker.next_sound hnodup h.row
        (h.workers w (mem_of_getElem? hi))
      refine ⟨hrow, fun w' hw' => ?_⟩
      rcases mem_or_eq_of_mem_set hw' with hw' | rfl
      · exact h.workers w' hw'
      · exact hnext

theorem keyDisabled_step (h : Inv unmarshalRaw key s)
    (hk : s.row.KeyDisabled unmarshalRaw k) {e : PollEvent} (hfresh : s.Fresh unmarshalRaw e)
    (hen : ¬ s.Enables k e) : (s.step unmarshalRaw e).row.KeyDisabled unmarshalRaw k := by
  cases e with
  | request => exact hk
  | call => exact hk
  | move i =>
    rcases hi : s.workers[i]? with _ | w
    · simp only [step, hi]
      exact hk
    · rw [step_move hi]
      exact PollWorker.next_keyDisabled h.row hk (h.workers w (mem_of_getElem? hi))
        fun hm => ⟨hfresh w hi hm, fun hw => hen ⟨w, hi, hm, hw⟩⟩

theorem spares_step {j : ℕ}
    (h : ∃ w, s.workers[j]? = some w ∧ w.Spares unmarshalRaw k) (e : PollEvent) :
    ∃ w, (s.step unmarshalRaw e).workers[j]? = some w ∧ w.Spares unmarshalRaw k := by
  obtain ⟨w, hj, hw⟩ := h
  have hlt := (List.getElem?_eq_some_iff.1 hj).1
  cases e with
  | request | call c => exact ⟨w, (getElem?_append_left hlt).trans hj, hw⟩
  | move i =>
    rcases hi : s.workers[i]? with _ | w'
    · simp only [step, hi]
      exact ⟨w, hj, hw⟩
    · rw [step_move hi]
      by_cases hij : i = j
      · subst hij
        rw [hj] at hi
        cases hi
        exact ⟨_, getElem?_set_self hlt, PollWorker.next_spares hw⟩
      · exact ⟨w, (getElem?_set_ne hij).trans hj, hw⟩

theorem keyDisabled_save {j : ℕ} {m : PollMove} {c : StatusCall}
    (h : Inv unmarshalRaw key s) (hcall : s.workers[j]? = some (PollWorker.updated c ch))
    (hok : m.ok = true) (hst : c.status ≠ .enabled) :
    (s.step unmarshalRaw (.move j m)).row.KeyDisabled unmarshalRaw c.usingKey := by
  obtain ⟨hcopy, hdis⟩ := h.workers _ (mem_of_getElem? hcall)
  have hrow : (s.step unmarshalRaw (.move j m)).row = { ch with key := s.row.key } := by
    rw [step_move hcall]
    simp [PollWorker.next, hok]
  intro i hi
  rw [hrow, (h.row.withKey hcopy).getKeys, ← hcopy.getKeys] at hi
  rw [hrow]
  exact hdis hst i hi

/-- Once a call that disables a key has returned true, the key stays disabled in the row and is
given to no request until a call enables it, where the keys are distinct and everything saved is
fresh. -/
theorem disabled_key_stays {s : PollState} (hstart : s.workers = []) (hkeys : s.row.keys = [])
    (hmulti : s.row.channelInfo.isMultiKey = true) (hnodup : (s.row.getKeys unmarshalRaw).Nodup)
    {es es' : List PollEvent} {j : ℕ} {m : PollMove} {c : StatusCall} {ch : Channel}
    (hcall : (run (step unmarshalRaw) s es).workers[j]? = some (PollWorker.updated c ch))
    (hok : m.ok = true) (hst : c.status ≠ .enabled)
    (hfresh : Along (step unmarshalRaw) (Fresh unmarshalRaw) s (es ++ PollEvent.move j m :: es'))
    (hno : Along (step unmarshalRaw) (fun s e => ¬ s.Enables c.usingKey e)
      (run (step unmarshalRaw) s (es ++ [.move j m])) es') :
    (run (step unmarshalRaw) s (es ++ PollEvent.move j m :: es')).row.KeyDisabled unmarshalRaw
      c.usingKey ∧
      ∀ i m' later pick,
        (run (step unmarshalRaw) s (es ++ PollEvent.move j m :: es')).workers[i]? =
            some PollWorker.loading →
        (run (step unmarshalRaw) s
          (es ++ PollEvent.move j m :: es' ++ PollEvent.move i m' :: later)).workers[i]? =
            some (PollWorker.given (.ok pick)) →
        pick.key ≠ c.usingKey := by
  have hrow : s.row.Copies s.row.key := ⟨rfl, hkeys, hmulti⟩
  rw [hrow.getKeys] at hnodup
  have hinv : ∀ es, Inv unmarshalRaw s.row.key (run (step unmarshalRaw) s es) :=
    run_inv (I := Inv unmarshalRaw s.row.key) (fun s e h => inv_step hnodup h e)
      ⟨hrow, by simp [hstart]⟩
  have hsaved := keyDisabled_save (hinv es) hcall hok hst
  rw [along_append] at hfresh
  have hlate : Along (step unmarshalRaw)
      (fun s e => s.Fresh unmarshalRaw e ∧ ¬ s.Enables c.usingKey e)
      (run (step unmarshalRaw) s (es ++ [.move j m])) es' := by
    refine Along.and ?_ hno
    rw [run_append]
    exact hfresh.2.2
  have hboth := Along.run_inv
    (I := fun t => Inv unmarshalRaw s.row.key t ∧ t.row.KeyDisabled unmarshalRaw c.usingKey)
    (fun t e ht he => ⟨inv_step hnodup ht.1 e, keyDisabled_step ht.1 ht.2 he.1 he.2⟩)
    ⟨hinv _, by rw [run_append]; exact hsaved⟩ hlate
  rw [← run_append, append_assoc, singleton_append] at hboth
  refine ⟨hboth.2, fun i m' later pick hi hgiven hpick => ?_⟩
  rw [run_append, run_cons] at hgiven
  have hload : ∃ w, ((run (step unmarshalRaw) s (es ++ PollEvent.move j m :: es')).step unmarshalRaw
      (.move i m')).workers[i]? = some w ∧ w.Spares unmarshalRaw c.usingKey := by
    rw [step_move hi]
    exact ⟨_, List.getElem?_set_self (List.getElem?_eq_some_iff.1 hi).1, hboth.1.row.multi,
      hboth.2⟩
  obtain ⟨w, hw, hspares⟩ := run_inv (I := fun t : PollState =>
    ∃ w, t.workers[i]? = some w ∧ w.Spares unmarshalRaw c.usingKey)
    (fun t e ht => spares_step ht e) hload later
  rw [hgiven] at hw
  cases hw
  exact hspares hpick

def twoPolled : PollState :=
  { row :=
      { id := 1
        key := "a\nb"
        channelInfo :=
          { isMultiKey := true, multiKeySize := 2, multiKeyPollingIndex := 1,
            multiKeyMode := .polling } } }

def disableA : StatusCall := { usingKey := "a", status := .autoDisabled }

/-- A call disables `a`, then a request loads the row and is given `b`. -/
theorem disabled_key_stays_sample : (run (step fun _ => none) twoPolled
      [.call disableA, .move 0 {}, .move 0 {}, .move 0 {}, .request]).row.KeyDisabled
        (fun _ => none) "a" ∧
      ∀ i m' later pick,
        (run (step fun _ => none) twoPolled
          [.call disableA, .move 0 {}, .move 0 {}, .move 0 {}, .request]).workers[i]? =
            some PollWorker.loading →
        (run (step fun _ => none) twoPolled
          ([PollEvent.call disableA, .move 0 {}, .move 0 {}, .move 0 {}, .request] ++
            PollEvent.move i m' :: later)).workers[i]? = some (PollWorker.given (.ok pick)) →
        pick.key ≠ "a" := by
  obtain ⟨ch, hcall⟩ : ∃ ch, (run (step fun _ => none) twoPolled
      [.call disableA, .move 0 {}, .move 0 {}]).workers[0]? =
        some (PollWorker.updated disableA ch) := ⟨_, rfl⟩
  have hfresh : Along (step fun _ => none) (Fresh fun _ => none) twoPolled
      ([PollEvent.call disableA, .move 0 {}, .move 0 {}] ++
        PollEvent.move 0 {} :: [.request]) := by
    decide
  have hno : Along (step fun _ => none) (fun s e => ¬ s.Enables "a" e)
      (run (step fun _ => none) twoPolled
        ([PollEvent.call disableA, .move 0 {}, .move 0 {}] ++ [PollEvent.move 0 {}]))
      [.request] := by
    decide
  exact disabled_key_stays rfl rfl rfl (by decide) hcall rfl (by decide) hfresh hno

def staleSave : List PollEvent :=
  [.request, .call disableA, .move 0 {}, .move 1 {}, .move 1 {}, .move 1 {}, .move 0 {},
    .move 0 {}, .request, .move 2 {}, .move 2 {}, .move 2 {}]

/-- The call has returned true and `a` is disabled. -/
theorem disabled_key_returns :
    (run (step fun _ => none) twoPolled (staleSave.take 6)).workers[1]?.any
        PollWorker.returnedTrue = true ∧
      (run (step fun _ => none) twoPolled (staleSave.take 6)).row.keyEnabled 0 = false ∧
      (run (step fun _ => none) twoPolled (staleSave.take 8)).row.keyEnabled 0 = true ∧
      ((run (step fun _ => none) twoPolled staleSave).workers[2]?.bind PollWorker.pick?) =
        some ⟨"a", 0, 1⟩ := by
  decide

end PollState

end AggreApi
