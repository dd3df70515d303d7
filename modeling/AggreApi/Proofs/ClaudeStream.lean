import AggreApi.Proofs.ClaudeEvents

/-!
# Well-formed event streams

Which streams of the upstream are converted to a well-formed sequence of events. The converter
counts the blocks anew after text or thinking while the offsets go on, converts only the first tool
call of the first chunk, and sends the reason with a usage only.
-/

namespace AggreApi

open List EventState OpenBlocks Option StreamChunk StreamDelta StreamItem

namespace StreamItem

def isCall : StreamItem → Bool
  | .call _ _ => true
  | _ => false

def Run (xs : List StreamItem) : Prop := (xs.dropWhile isCall).all (!·.isCall)

/-- The tool calls come one after the other, with no text or thinking between them. -/
def OneRun (xs : List StreamItem) : Prop := Run (xs.dropWhile (!·.isCall))

instance (xs : List StreamItem) : Decidable (OneRun xs) :=
  inferInstanceAs (Decidable (_ = true))

theorem call_or_spoken (x : StreamItem) : (∃ o c, x = .call o c) ∨ x.isCall = false := by
  cases x with
  | call o c => exact .inl ⟨o, c, rfl⟩
  | thinking t | text t => exact .inr rfl

section Spoken

variable {x : StreamItem} (hx : x.isCall = false) (xs : List StreamItem)

include hx

theorem calls_spoken : calls (x :: xs) = calls xs := by
  cases x with
  | call => cases hx
  | thinking => rfl
  | text => rfl

theorem fits_spoken (n : ℕ) : Fits n (x :: xs) ↔ Fits 0 xs := by
  cases x with
  | call => cases hx
  | thinking t | text t => exact iff_of_eq (true_and _)

theorem run_spoken : Run (x :: xs) ↔ xs.all (!·.isCall) = true := by simp [Run, hx]

theorem oneRun_spoken : OneRun (x :: xs) ↔ OneRun xs := by simp [OneRun, hx]

end Spoken

theorem run_call (o : ℕ) (c : ToolCallResponse) (xs : List StreamItem) :
    Run (.call o c :: xs) ↔ Run xs := Iff.rfl

theorem oneRun_call (o : ℕ) (c : ToolCallResponse) (xs : List StreamItem) :
    OneRun (.call o c :: xs) ↔ Run xs := Iff.rfl

theorem calls_append : ∀ xs ys : List StreamItem, calls (xs ++ ys) = calls xs ++ calls ys
  | [], _ => rfl
  | x :: xs, ys => by
    rcases x.call_or_spoken with ⟨o, c, rfl⟩ | hx
    · exact congrArg _ (calls_append xs ys)
    · rw [cons_append, calls_spoken hx, calls_spoken hx, calls_append]

theorem calls_eq_nil : ∀ {xs : List StreamItem}, xs.all (!·.isCall) = true → calls xs = []
  | [], _ => rfl
  | x :: xs, h => by
    simp only [all_cons, Bool.and_eq_true, Bool.not_eq_true'] at h
    rw [calls_spoken h.1, calls_eq_nil h.2]

theorem fits_zero_iff_none : ∀ {xs : List StreamItem} {n : ℕ}, 0 < n → Numbered n (calls xs) →
    (Fits 0 xs ↔ xs.all (!·.isCall) = true)
  | [], _, _, _ => by simp [Fits]
  | x :: xs, n, hn, hnum => by
    rcases x.call_or_spoken with ⟨o, c, rfl⟩ | hx
    · have hmis : ¬ FitsAt 0 (.call o c) := by
        simp only [calls, Numbered] at hnum
        simp only [FitsAt]
        split_ifs at hnum ⊢
        · omega
        · omega
      simp [Fits, hmis, isCall]
    · rw [calls_spoken hx] at hnum
      rw [fits_spoken hx, fits_zero_iff_none hn hnum, all_cons, hx, Bool.not_false,
        Bool.true_and]

theorem fits_iff_run : ∀ {xs : List StreamItem} {n : ℕ}, 0 < n → Numbered n (calls xs) →
    (Fits n xs ↔ Run xs)
  | [], _, _, _ => by simp [Fits, Run]
  | x :: xs, n, hn, hnum => by
    rcases x.call_or_spoken with ⟨o, c, rfl⟩ | hx
    · simp only [calls, Numbered] at hnum
      rw [run_call, Fits]
      simp only [FitsAt, after]
      split_ifs at hnum ⊢
      · rw [fits_iff_run (Nat.succ_pos n) hnum.2, and_iff_right hnum.1]
      · rw [fits_iff_run hn hnum.2, and_iff_right hnum.1]
    · rw [calls_spoken hx] at hnum
      rw [fits_spoken hx, run_spoken hx, fits_zero_iff_none hn hnum]

theorem fits_iff_oneRun : ∀ {xs : List StreamItem}, Numbered 0 (calls xs) → (Fits 0 xs ↔ OneRun xs)
  | [], _ => by simp [Fits, OneRun, Run]
  | x :: xs, hnum => by
    rcases x.call_or_spoken with ⟨o, c, rfl⟩ | hx
    · simp only [calls, Numbered] at hnum
      rw [oneRun_call, Fits]
      simp only [FitsAt, after]
      split_ifs at hnum ⊢
      · rw [fits_iff_run (Nat.succ_pos 0) hnum.2, and_iff_right hnum.1]
      · exact absurd hnum.1 (Nat.not_lt_zero _)
    · rw [calls_spoken hx] at hnum
      rw [fits_spoken hx, oneRun_spoken hx, fits_iff_oneRun hnum]

theorem fits_one_iff : ∀ {xs : List StreamItem} {n : ℕ}, 1 < n → Numbered n (calls xs) →
    (Fits 1 xs ↔ Run xs ∧ ∀ x ∈ calls xs, x.1 = 0)
  | [], _, _, _ => by simp [Fits, Run, calls]
  | x :: xs, n, hn, hnum => by
    rcases x.call_or_spoken with ⟨o, c, rfl⟩ | hx
    · simp only [calls, Numbered] at hnum
      rw [run_call, Fits, calls, forall_mem_cons]
      simp only [FitsAt, after]
      split_ifs at hnum ⊢
      · have hne : o ≠ 1 := by omega
        have hne' : o ≠ 0 := by omega
        simp [hne, hne']
      · rw [fits_one_iff hn hnum.2, Nat.lt_one_iff]
        tauto
    · rw [calls_spoken hx] at hnum
      rw [fits_spoken hx, run_spoken hx, calls_spoken hx, fits_zero_iff_none (by omega) hnum]
      refine (and_iff_left_of_imp fun h => ?_).symm
      rw [calls_eq_nil h]
      exact forall_mem_nil _

theorem calls_eq_nil_of_spoken (d : StreamDelta) : calls d.spoken = [] := by
  rw [spoken]
  split_ifs
  · rfl
  · rfl
  · rfl

theorem calls_items (d : StreamDelta) : calls d.items = d.offsets := by
  rw [StreamDelta.items]
  split_ifs with h
  · induction d.offsets with
    | nil => rfl
    | cons _ _ ih => exact congrArg _ ih
  · rw [calls_eq_nil_of_spoken, StreamDelta.offsets, not_not.1 h]
    rfl

theorem fits_firstItems {d : StreamDelta} (hd : Numbered 0 d.offsets) {later : List StreamItem}
    (hlater : Numbered (namedCalls d.offsets) (calls later)) :
    Fits 0 (d.firstItems ++ later) ↔ OneRun (d.firstItems ++ later) ∧
      ((∃ x ∈ d.offsets, 1 ≤ x.1) → ∀ x ∈ calls later, x.1 = 0) := by
  have hspoken : calls (d.spoken ++ later) = calls later := by
    rw [calls_append, calls_eq_nil_of_spoken, nil_append]
  rcases hc : d.calls with _ | ⟨c, cs⟩
  · have hitems : d.firstItems = d.spoken := by simp [StreamDelta.firstItems, hc]
    have hoffsets : d.offsets = [] := by simp [StreamDelta.offsets, hc]
    have hnum : Numbered 0 (calls (d.spoken ++ later)) := by
      rw [hspoken]
      simpa [hoffsets, namedCalls] using hlater
    rw [hitems, fits_iff_oneRun hnum, hoffsets]
    simp
  · have hitems : d.firstItems = .call 0 c :: d.spoken := by simp [StreamDelta.firstItems, hc]
    obtain ⟨l, hoffsets⟩ : ∃ l, d.offsets = (c.index.getD 0, c) :: l := by
      simp [StreamDelta.offsets, hc]
    have hname : c.name ≠ "" := by
      intro hname
      simp [hoffsets, Numbered, hname] at hd
    have hpos : 0 < namedCalls d.offsets := by simp [hoffsets, namedCalls, hname]
    have hfits : Fits 0 (d.firstItems ++ later) ↔ Fits 1 (d.spoken ++ later) := by
      rw [hitems, cons_append, Fits]
      simp [FitsAt, after, hname]
    rw [hfits, hitems, cons_append, oneRun_call]
    rcases Nat.lt_or_ge 1 (namedCalls d.offsets) with htwo | hone
    · rw [fits_one_iff htwo (hspoken ▸ hlater), hspoken]
      obtain ⟨x, hx, hx1⟩ := hd.exists_eq htwo
      exact and_congr_right fun _ => ⟨fun h _ => h, fun h => h ⟨x, hx, by omega⟩⟩
    · have hn : namedCalls d.offsets = 1 := by omega
      rw [hn] at hlater
      rw [fits_iff_run one_pos (hspoken ▸ hlater)]
      refine (and_iff_left ?_).symm
      rintro ⟨x, hx, hx1⟩
      have hlt := hd.lt x hx
      omega

end StreamItem

structure OpenAIStream where
  content : List StreamChunk
  last : StreamChunk
  trailing : Option StreamChunk
  reason : String
  content_finish : ∀ c ∈ content, c.finish? = none
  last_finish : last.finish? = some reason
  trailing_choices : ∀ c ∈ trailing, c.choices = []
  numbered : Numbered 0 ((content ++ [last]).flatMap StreamChunk.offsets)

namespace OpenAIStream

variable (s : OpenAIStream)

def chunks : List StreamChunk := s.content ++ s.last :: s.trailing.toList

def events (usage : TokenUsage) (promptTokens : ℤ) : List ClaudeEvent :=
  oaiStreamHandler usage { estimatePromptTokens := promptTokens } s.chunks

def later (rest : List StreamChunk) (last : StreamChunk) : List StreamItem :=
  (rest ++ [last]).flatMap StreamChunk.items

/-- At least two chunks come before the end of the stream, a chunk with the usage counting. -/
def Converts : Prop :=
  match s.content with
  | [] => s.trailing.isSome = true ∧ s.last.usage.isSome = true
  | first :: rest =>
    (rest ≠ [] ∨ s.trailing.isSome = true) ∧
      (s.trailing.isSome = true → ∃ c ∈ first :: rest ++ [s.last], c.usage.isSome = true) ∧
      StreamItem.OneRun (first.firstItems ++ later rest s.last) ∧
      ((∃ x ∈ first.offsets, 1 ≤ x.1) →
        ∀ x ∈ (rest ++ [s.last]).flatMap StreamChunk.offsets, x.1 = 0)

end OpenAIStream

namespace EventState

variable {reason : String}

theorem phase_step {s t : EventState} {e : ClaudeEvent} (h : step reason s e = some t) :
    t.phase ≠ .before := by
  rcases e <;> simp only [step, ite_none_right_eq_some, Option.some.injEq] at h <;>
    obtain ⟨h, rfl⟩ := h <;> simp [h]

theorem phase_accept : ∀ {es : List ClaudeEvent} {s t : EventState}, s.phase ≠ .before →
    accept reason s es = some t → t.phase ≠ .before
  | [], s, t, hs, h => by
    rw [← Option.some.inj h]
    exact hs
  | e :: es, s, t, hs, h => by
    rw [accept_cons] at h
    obtain ⟨s', hs', h⟩ := bind_eq_some_iff.1 h
    exact phase_accept (phase_step hs') h

theorem accept_messageStart_twice (id model : String) (n : ℤ) (es : List ClaudeEvent)
    (id' model' : String) (n' : ℤ) (es' : List ClaudeEvent) :
    accept reason {} (.messageStart id model n :: (es ++ .messageStart id' model' n' :: es')) =
      none := by
  rw [accept_cons, step, if_pos rfl, bind_some, accept_append]
  rcases h : accept reason _ es with _ | t
  · rfl
  · have hphase := phase_accept (by decide) h
    rw [bind_some, accept_cons, step, if_neg hphase, bind_none]

end EventState

namespace OpenBlocks

theorem accept_unstarted (reason : String) {xs : List StreamItem}
    (hnum : Numbered 0 (calls xs)) (known : Option TokenUsage) (r : String) :
    accept reason {} ((convertAll {} xs).1 ++
      ((convertAll {} xs).2.stops ++ closing known r)) = none := by
  rcases xs with _ | ⟨x, xs⟩
  · rcases known with _ | u <;>
      simp [convertAll, stops, closing, accept, step]
  · have hfirst : accept reason {} (convert {} x).1 = none := by
      rcases x.call_or_spoken with ⟨o, c, rfl⟩ | hx
      · have hname : c.name ≠ "" := by
          intro hname
          simp [StreamItem.calls, Numbered, hname] at hnum
        simp [convert, turnStops, stops, toolEvents, hname, accept, step]
      · cases x with
        | call => cases hx
        | thinking t | text t =>
          simp [convert, say, turnStops, stops, accept, step]
    rw [accept_convertAll_cons, hfirst, bind_none]

theorem accept_closing (known : Option TokenUsage) (r : String) (n : ℕ) :
    (accept (openAIFinishReasonToClaudeStopReason r) { phase := .body, next := n }
      (closing known r)).any (·.phase = .stopped) = known.isSome := by
  rcases known with _ | u <;> simp [closing, accept, step]

theorem wellFormed_message {first later : List StreamItem} {n : ℕ}
    (hfirst : StreamItem.Fits 0 first) (hlater : Numbered n (calls later))
    (known : Option TokenUsage) (id model : String) (promptTokens : ℤ) (r : String) :
    WellFormed (openAIFinishReasonToClaudeStopReason r)
        (.messageStart id model promptTokens :: ((convertAll {} (first ++ later)).1 ++
          ((convertAll {} (first ++ later)).2.stops ++ closing known r))) ↔
      StreamItem.Fits 0 (first ++ later) ∧ known.isSome = true := by
  have hshown : Shown {} { phase := .body } := ⟨rfl, rfl, rfl⟩
  obtain ⟨s, hs, hshown, hcount⟩ :=
    accept_items (openAIFinishReasonToClaudeStopReason r) hshown hfirst
  rw [WellFormed, accept_cons, step, if_pos rfl, bind_some,
    convertAll_append, append_assoc, accept_append, hs, bind_some,
    accept_iff (accept_closing known r) hshown hlater, hcount, fits_append]
  exact and_congr_left fun _ => (and_iff_right hfirst).symm

end OpenBlocks

namespace StreamChunk

theorem calls_items (c : StreamChunk) : calls c.items = c.offsets := by
  rw [items, offsets]
  rcases c.choices.head? with _ | choice
  · rfl
  · exact StreamItem.calls_items choice.delta

theorem calls_flatMap_items : ∀ cs : List StreamChunk,
    calls (cs.flatMap items) = cs.flatMap offsets
  | [] => rfl
  | c :: cs => by
    rw [flatMap_cons, flatMap_cons, calls_append, calls_items,
      calls_flatMap_items cs]

variable {c : StreamChunk}

theorem fits_firstItems (hc : Numbered 0 c.offsets) {later : List StreamItem}
    (hlater : Numbered (namedCalls c.offsets) (calls later)) :
    StreamItem.Fits 0 (c.firstItems ++ later) ↔ StreamItem.OneRun (c.firstItems ++ later) ∧
      ((∃ x ∈ c.offsets, 1 ≤ x.1) → ∀ x ∈ calls later, x.1 = 0) := by
  rw [offsets] at hc hlater ⊢
  rw [firstItems]
  rcases hhead : c.choices.head? with _ | choice <;> rw [hhead] at hc hlater
  · rw [elim_none, nil_append, fits_iff_oneRun hlater, elim_none]
    simp
  · exact StreamItem.fits_firstItems hc hlater

theorem fits_zero_firstItems (hc : Numbered 0 c.offsets) :
    StreamItem.Fits 0 c.firstItems := by
  have hall := @fits_firstItems c hc [] trivial
  rw [append_nil] at hall
  refine hall.2 ⟨?_, fun _ => forall_mem_nil _⟩
  rw [firstItems]
  rcases c.choices.head? with _ | choice
  · rfl
  · rw [Option.elim_some, StreamDelta.firstItems, StreamDelta.spoken]
    rcases choice.delta.calls.head? with _ | call <;> split_ifs <;> rfl

theorem handleStreamFormat_first (h : c.finish? = none)
    (hnum : Numbered 0 c.offsets) (promptTokens : ℤ) :
    c.handleStreamFormat { estimatePromptTokens := promptTokens } =
      (.messageStart c.id c.model promptTokens :: (convertAll {} c.firstItems).1,
        (c.received { estimatePromptTokens := promptTokens }).withBlocks
          (convertAll {} c.firstItems).2) :=
  convertFirst_none h hnum rfl

end StreamChunk

namespace OpenAIStream

variable (s : OpenAIStream) (usage : TokenUsage) (promptTokens : ℤ)

variable {last : StreamChunk} {reason : String}

theorem not_wellFormed_single
    (hlast : last.finish? = some reason) (hnum : Numbered 0 last.offsets) (r : String) :
    ¬ WellFormed r (oaiStreamHandler usage { estimatePromptTokens := promptTokens }
      [last]) := by
  have hevents : oaiStreamHandler usage
    { estimatePromptTokens := promptTokens } [last] =
      (convertAll {} last.items).1 ++ ((convertAll {} last.items).2.stops ++
        closing (last.usage.or (some usage)) reason) :=
    (convertNext_some hlast _).1
  rw [← StreamChunk.calls_items] at hnum
  rw [WellFormed, hevents, accept_unstarted r hnum]
  decide

variable {first : StreamChunk}

theorem not_wellFormed_pair (hfirst : first.finish? = none)
    (hnum : Numbered 0 first.offsets) (r : String) :
    ¬ WellFormed r (oaiStreamHandler usage { estimatePromptTokens := promptTokens }
      [first, last]) := by
  rw [oaiStreamHandler_cons _ _ _ (cons_ne_nil _ _),
    handleStreamFormat_first hfirst hnum]
  obtain ⟨es, hes⟩ : ∃ es, oaiStreamHandler usage
      ((first.received { estimatePromptTokens := promptTokens }).withBlocks
        (convertAll {} first.firstItems).2) [last] =
      .messageStart last.id last.model promptTokens :: es := by
    change ∃ es, (last.convertFirst _).1 = _
    rw [convertFirst]
    rcases last.choices with _ | ⟨choice, rest⟩
    · exact ⟨_, rfl⟩
    · rcases last.finish? with _ | reason <;> exact ⟨_, rfl⟩
  rw [WellFormed, hes, cons_append, accept_messageStart_twice]
  decide

theorem wellFormed_last_iff {trailing : StreamChunk}
    (hlast : last.finish? = some reason) (hnum : Numbered 0 last.offsets) :
    WellFormed (openAIFinishReasonToClaudeStopReason reason) (oaiStreamHandler usage
      { estimatePromptTokens := promptTokens } [last, trailing]) ↔ last.usage.isSome = true := by
  have hb : (last.received { estimatePromptTokens := promptTokens }).blocks = {} := rfl
  obtain ⟨hevents, hdone⟩ := convertFirst_some hlast hnum hb
  have hall : oaiStreamHandler usage { estimatePromptTokens := promptTokens }
      [last, trailing] = .messageStart last.id last.model promptTokens ::
        ((convertAll {} (last.firstItems ++ [])).1 ++
          ((convertAll {} (last.firstItems ++ [])).2.stops ++
            closing (last.usage.or (last.usage.or none)) reason)) := by
    have hc : last.handleStreamFormat { estimatePromptTokens := promptTokens } =
        last.convertFirst (last.received { estimatePromptTokens := promptTokens }) := rfl
    rw [oaiStreamHandler_cons _ _ _ (cons_ne_nil _ _), hc,
      oaiStreamHandler_done _ _ hdone, append_nil, hevents, append_nil]
    rfl
  have hfits := fits_zero_firstItems hnum
  have hnone : Numbered 0 (calls []) := trivial
  rw [hall, wellFormed_message hfits hnone, append_nil, and_iff_right hfits]
  rcases last.usage with _ | u <;> simp

theorem wellFormed_stream_iff {rest : List StreamChunk}
    {trailing : Option StreamChunk} (hfirst : first.finish? = none)
    (hrest : ∀ c ∈ rest, c.finish? = none) (hlast : last.finish? = some reason)
    (hnum : Numbered 0 ((first :: rest ++ [last]).flatMap StreamChunk.offsets))
    (hlong : rest ≠ [] ∨ trailing.isSome = true) :
    WellFormed (openAIFinishReasonToClaudeStopReason reason) (oaiStreamHandler usage
        { estimatePromptTokens := promptTokens } (first :: (rest ++ last :: trailing.toList))) ↔
      (trailing.isSome = true → ∃ c ∈ first :: rest ++ [last], c.usage.isSome = true) ∧
        StreamItem.OneRun (first.firstItems ++ later rest last) ∧
        ((∃ x ∈ first.offsets, 1 ≤ x.1) →
          ∀ x ∈ (rest ++ [last]).flatMap StreamChunk.offsets, x.1 = 0) := by
  rw [cons_append, flatMap_cons] at hnum
  obtain ⟨hnum, hlater⟩ := numbered_append_iff.1 hnum
  have hcalls : calls (later rest last) =
      (rest ++ [last]).flatMap StreamChunk.offsets := StreamChunk.calls_flatMap_items _
  rw [Nat.zero_add, ← hcalls] at hlater
  obtain ⟨known, hevents, hknown⟩ := oaiStreamHandler_rest usage hlast trailing rest
    ((first.received { estimatePromptTokens := promptTokens }).withBlocks
      (convertAll {} first.firstItems).2) rfl le_rfl (fun _ => hlong) hrest
  have hall : oaiStreamHandler usage { estimatePromptTokens := promptTokens }
      (first :: (rest ++ last :: trailing.toList)) =
        .messageStart first.id first.model promptTokens ::
          ((convertAll {} (first.firstItems ++ later rest last)).1 ++
            ((convertAll {} (first.firstItems ++ later rest last)).2.stops ++
              closing known reason)) := by
    rw [oaiStreamHandler_cons _ _ _ (by simp),
      handleStreamFormat_first hfirst hnum, hevents, convertAll_append,
      cons_append, append_assoc]
    rfl
  have husage : (trailing.isSome = true → ∃ c ∈ first :: rest ++ [last], c.usage.isSome = true) ↔
      known.isSome = true := by
    have hu : ((first.received { estimatePromptTokens := promptTokens }).withBlocks
        (convertAll {} first.firstItems).2).usage = first.usage.or none := rfl
    rw [hknown, hu, or_none, cons_append, exists_mem_cons_iff]
    rcases trailing <;> simp
  rw [hall, wellFormed_message (fits_zero_firstItems hnum) hlater,
    fits_firstItems hnum hlater, hcalls, husage]
  exact and_comm

/-- The events of a stream are well formed, with the reason it ended with, exactly when it
converts. -/
theorem wellFormed_events_iff :
    WellFormed (openAIFinishReasonToClaudeStopReason s.reason) (s.events usage promptTokens) ↔
      s.Converts := by
  obtain ⟨content, last, trailing, reason, hcontent, hlast, -, hnum⟩ := s
  rw [events, chunks, Converts]
  rcases content with _ | ⟨first, rest⟩
  · have hnum : Numbered 0 last.offsets := by simpa using hnum
    rcases trailing with _ | trailing
    · simpa using not_wellFormed_single usage promptTokens hlast hnum _
    · simpa using wellFormed_last_iff usage promptTokens hlast hnum
  · have hfirst := hcontent first mem_cons_self
    have hrest : ∀ c ∈ rest, c.finish? = none := fun c hc => hcontent c (mem_cons_of_mem _ hc)
    by_cases hlong : rest ≠ [] ∨ trailing.isSome = true
    · dsimp only
      rw [and_iff_right hlong]
      exact wellFormed_stream_iff usage promptTokens hfirst hrest hlast hnum hlong
    · obtain ⟨rfl, rfl⟩ : rest = [] ∧ trailing = none := by simpa using hlong
      have hnum : Numbered 0 first.offsets := (numbered_append_iff.1 hnum).1
      simpa using not_wellFormed_pair usage promptTokens hfirst hnum _

def greeting : OpenAIStream where
  content :=
    [{ choices := [{ delta := { content := some "", role := "assistant" } }] },
      { choices := [{ delta := { content := some "Hi" } }] }]
  last := { choices := [{ finishReason := some "stop" }] }
  trailing := some { usage := some { promptTokens := 9, completionTokens := 1, totalTokens := 10 } }
  reason := "stop"
  content_finish := forall_mem_cons.2 ⟨rfl, forall_mem_singleton.2 rfl⟩
  last_finish := rfl
  trailing_choices := fun _ hc => (mem_some_iff.1 hc) ▸ rfl
  numbered := trivial

/-- The greeting ends without its reason. -/
theorem greeting_without_reason :
    greeting.events { promptTokens := 9, completionTokens := 1, totalTokens := 10 } 9 =
        [.messageStart "" "" 9, .blockStart 0 .text, .blockDelta 0 (.text "Hi"), .blockStop 0,
          .messageStop] ∧
      ¬ WellFormed (openAIFinishReasonToClaudeStopReason greeting.reason)
        (greeting.events { promptTokens := 9, completionTokens := 1, totalTokens := 10 } 9) := by
  have hevents : greeting.events
      { promptTokens := 9, completionTokens := 1, totalTokens := 10 } 9 =
        [.messageStart "" "" 9, .blockStart 0 .text, .blockDelta 0 (.text "Hi"), .blockStop 0,
          .messageStop] := rfl
  refine ⟨hevents, ?_⟩
  rw [hevents]
  simp [WellFormed, EventState.accept, EventState.step, ClaudeDelta.kind, ClaudeBlock.kind]

end OpenAIStream

end AggreApi
