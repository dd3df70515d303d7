import AggreApi.Proofs.ClaudeItems

/-!
# Events of a Claude client

A client reads the events with `EventState.step`. What the converter holds open is what the client
holds open as long as every tool call fits; after a call that does not fit the events are refused,
at the latest where the blocks are stopped.
-/

namespace AggreApi

open List

variable {x : StreamItem} {n : ℕ} {b : OpenBlocks} {type : LastMessageType}

namespace StreamItem

/-- A tool call may come where `n` tool calls are open. -/
def FitsAt (n : ℕ) : StreamItem → Prop
  | .call o c => if c.name ≠ "" then o = n else o < n
  | _ => True

def after : ℕ → StreamItem → ℕ
  | n, .call _ c => if c.name ≠ "" then n + 1 else n
  | _, _ => 0

def Fits : ℕ → List StreamItem → Prop
  | _, [] => True
  | n, x :: xs => x.FitsAt n ∧ Fits (x.after n) xs

theorem fits_append : ∀ (n : ℕ) (xs ys : List StreamItem),
    Fits n (xs ++ ys) ↔ Fits n xs ∧ Fits (xs.foldl after n) ys
  | _, [], _ => by simp [Fits]
  | n, x :: xs, ys => by
    rw [cons_append, Fits, Fits, foldl_cons, fits_append (x.after n) xs ys, and_assoc]

theorem numbered_tail {xs : List StreamItem}
    (h : Numbered n (calls (x :: xs))) : ∃ m, Numbered m (calls xs) := by
  cases x with
  | call =>
    simp only [calls, Numbered] at h
    split_ifs at h
    · exact ⟨_, h.2⟩
    · exact ⟨_, h.2⟩
  | thinking => exact ⟨n, h⟩
  | text => exact ⟨n, h⟩

end StreamItem

inductive MessagePhase where
  | before
  | body
  | ending
  | stopped
  deriving DecidableEq, Repr

inductive BlockKind where
  | text
  | thinking
  | toolUse
  deriving DecidableEq, Repr

def ClaudeBlock.kind : ClaudeBlock → BlockKind
  | text => .text
  | thinking => .thinking
  | toolUse _ _ => .toolUse

def ClaudeDelta.kind : ClaudeDelta → BlockKind
  | text _ => .text
  | thinking _ => .thinking
  | inputJson _ => .toolUse

/-- What a client knows: the next block's index and the blocks that are open, with their kinds. -/
structure EventState where
  phase : MessagePhase := .before
  next : ℕ := 0
  opened : List (ℕ × BlockKind) := []
  deriving DecidableEq, Repr

variable (reason : String) (s : EventState) (es : List ClaudeEvent)

namespace EventState

def step : ClaudeEvent → Option EventState
  | .messageStart _ _ _ => if s.phase = .before then some { s with phase := .body } else none
  | .blockStart i block =>
    if s.phase = .body ∧ i = s.next then
      some { s with next := i + 1, opened := s.opened ++ [(i, block.kind)] }
    else none
  | .blockDelta i delta => if s.phase = .body ∧ (i, delta.kind) ∈ s.opened then some s else none
  | .blockStop i =>
    if s.phase = .body ∧ i ∈ s.opened.map Prod.fst then
      some { s with opened := s.opened.filter (·.1 ≠ i) }
    else none
  | .messageDelta _ stopReason =>
    if s.phase = .body ∧ s.opened = [] ∧ stopReason = reason then
      some { s with phase := .ending }
    else none
  | .messageStop => if s.phase = .ending then some { s with phase := .stopped } else none

def accept : Option EventState := es.foldlM (step reason) s

end EventState

def WellFormed : Prop := (EventState.accept reason {} es).any (·.phase = .stopped) = true

namespace EventState

variable {reason : String}

theorem accept_append (es' : List ClaudeEvent) :
    accept reason s (es ++ es') = (accept reason s es).bind fun t => accept reason t es' :=
  foldlM_append

theorem accept_cons (e : ClaudeEvent) (es : List ClaudeEvent) :
    accept reason s (e :: es) = (step reason s e).bind fun t => accept reason t es :=
  foldlM_cons

theorem accept_stops {k : BlockKind} : ∀ {is : List ℕ} {s : EventState}, is.Nodup →
    s.phase = .body → s.opened = is.map (fun i => (i, k)) →
    accept reason s (is.map .blockStop) = some { s with opened := [] }
  | [], s, _, _, hopen => by
    have hs : s.opened = [] := hopen
    simp [accept, ← hs]
  | i :: is, s, hnodup, hphase, hopen => by
    obtain ⟨hi, hnodup⟩ := nodup_cons.1 hnodup
    have hfilter : s.opened.filter (·.1 ≠ i) = is.map fun i => (i, k) := by
      rw [hopen, map_cons, filter_cons_of_neg (by simp), filter_eq_self]
      simp only [mem_map, forall_exists_index, and_imp]
      rintro _ j hj rfl
      simpa using fun h : j = i => hi (h ▸ hj)
    have hstep : step reason s (.blockStop i) =
        some { s with opened := is.map fun i => (i, k) } := by
      rw [step, if_pos ⟨hphase, by simp [hopen]⟩, hfilter]
    rw [map_cons, accept_cons, hstep, Option.bind_some]
    exact accept_stops hnodup hphase rfl

theorem accept_stops_none {j : ℕ} : ∀ {is : List ℕ} {s : EventState}, j ∈ is →
    j ∉ s.opened.map Prod.fst → accept reason s (is.map .blockStop) = none
  | i :: is, s, hmem, hopen => by
    rw [map_cons, accept_cons, step]
    split_ifs with hi
    · rw [Option.bind_some]
      rcases mem_cons.1 hmem with rfl | hmem
      · exact absurd hi.2 hopen
      · refine accept_stops_none hmem fun h => hopen ?_
        obtain ⟨x, hx, rfl⟩ := mem_map.1 h
        exact mem_map.2 ⟨x, (mem_filter.1 hx).1, rfl⟩
    · rfl

end EventState

namespace OpenBlocks

variable {reason : String}

/-- The blocks that are open for the converter are open for the client, and no others. -/
def Shown (b : OpenBlocks) (s : EventState) : Prop :=
  s.phase = .body ∧
    match b.last with
    | .none => s.opened = [] ∧ s.next = b.index
    | .text => s.opened = [(b.index, .text)] ∧ s.next = b.index + 1
    | .thinking => s.opened = [(b.index, .thinking)] ∧ s.next = b.index + 1
    | .tools => s.opened = ((List.range (b.top + 1)).map (b.base + ·)).map
      (fun i => (i, .toolUse)) ∧
        s.next = b.base + b.top + 1

theorem stops_tools (h : b.last = .tools) :
    b.stops = ((List.range (b.top + 1)).map (b.base + ·)).map .blockStop := by
  rw [stops, h, map_map]
  rfl

variable {s : EventState}

theorem accept_stops (reason : String) (h : b.Shown s) :
    EventState.accept reason s b.stops = some { s with opened := [] } ∧
      s.next = b.advance.index := by
  obtain ⟨hphase, h⟩ := h
  rw [advance]
  rcases hlast : b.last <;> rw [hlast] at h
  · obtain ⟨hopen, hnext⟩ := h
    refine ⟨?_, hnext⟩
    simp [stops, hlast, EventState.accept, ← hopen]
  · obtain ⟨hopen, hnext⟩ := h
    refine ⟨?_, hnext⟩
    have hs : b.stops = [b.index].map .blockStop := by simp [stops, hlast]
    rw [hs]
    exact EventState.accept_stops (nodup_singleton _) hphase hopen
  · obtain ⟨hopen, hnext⟩ := h
    refine ⟨?_, hnext⟩
    rw [stops_tools hlast]
    refine EventState.accept_stops ?_ hphase hopen
    exact nodup_range.map fun _ _ hij => Nat.add_left_cancel hij
  · obtain ⟨hopen, hnext⟩ := h
    refine ⟨?_, hnext⟩
    have hs : b.stops = [b.index].map .blockStop := by simp [stops, hlast]
    rw [hs]
    exact EventState.accept_stops (nodup_singleton _) hphase hopen

/-- The two types that have one block at a time, with its kind. -/
def Spoken (type : LastMessageType) (k : BlockKind) : Prop :=
  type = .text ∧ k = .text ∨ type = .thinking ∧ k = .thinking

variable {k : BlockKind}

theorem shown_spoken (h : Spoken b.last k) :
    b.Shown s ↔ s.phase = .body ∧ s.opened = [(b.index, k)] ∧ s.next = b.index + 1 := by
  rw [Shown]
  rcases h with ⟨h, rfl⟩ | ⟨h, rfl⟩ <;> rw [h]

theorem accept_say (reason : String) (h : b.Shown s)
    (htype : Spoken type k) (block : ClaudeBlock)
    (hblock : block.kind = k) (delta : ClaudeDelta) (hdelta : delta.kind = k) :
    ∃ s', EventState.accept reason s (b.say type block delta).1 = some s' ∧
      (b.say type block delta).2.Shown s' := by
  have htools : type ≠ .tools := by
    rcases htype with ⟨rfl, -⟩ | ⟨rfl, -⟩ <;> decide
  by_cases hlast : b.last = type
  · have hb := (shown_spoken (hlast ▸ htype)).1 h
    refine ⟨s, ?_, ?_⟩
    · simp [say, turnStops, turn, hlast, EventState.accept, EventState.step, hb, hdelta]
    · have hturn : b.turn type = b := if_pos hlast
      change (b.turn type).Shown s
      rw [hturn]
      exact h
  · obtain ⟨hstops, hnext⟩ := accept_stops reason h
    have hturn : b.turn type = { b.advance with last := type } := by
      rw [turn, if_neg hlast, if_neg htools]
    refine ⟨{ s with opened := [(b.advance.index, k)], next := b.advance.index + 1 }, ?_, ?_⟩
    · rw [say, turnStops, if_neg hlast, if_neg hlast, append_assoc, EventState.accept_append,
        hstops, Option.bind_some, hturn]
      simp [EventState.accept, EventState.step, h.1, hnext, hblock, hdelta]
    · rw [say, hturn]
      exact (shown_spoken htype).2 ⟨h.1, rfl, rfl⟩

def toolCount (b : OpenBlocks) : ℕ := if b.last = .tools then b.top + 1 else 0

/-- The client when the converter has turned to tool calls, with `n` of them open from `base` on. -/
structure ToolsShown (base n : ℕ) (s : EventState) : Prop where
  phase : s.phase = .body
  opened : s.opened = ((List.range n).map (base + ·)).map fun i => (i, .toolUse)
  next : s.next = base + n

theorem shown_tools (h : b.last = .tools) :
    b.Shown s ↔ ToolsShown b.base (b.top + 1) s := by
  rw [Shown, h]
  exact ⟨fun ⟨h1, h2, h3⟩ => ⟨h1, h2, h3⟩, fun ⟨h1, h2, h3⟩ => ⟨h1, h2, h3⟩⟩

theorem accept_turn_tools (reason : String) (h : b.Shown s) :
    ∃ s', EventState.accept reason s (b.turnStops .tools) = some s' ∧
      ToolsShown (b.turn .tools).base b.toolCount s' ∧ (b.turn .tools).top = b.toolCount - 1 := by
  by_cases hlast : b.last = .tools
  · have hturn : b.turn .tools = b := if_pos hlast
    refine ⟨s, by simp [turnStops, hlast, EventState.accept], ?_, ?_⟩
    · rw [hturn, toolCount, if_pos hlast]
      exact (shown_tools hlast).1 h
    · rw [hturn, toolCount, if_pos hlast]
      rfl
  · obtain ⟨hstops, hnext⟩ := accept_stops reason h
    have hturn : b.turn .tools =
        { last := .tools, index := b.advance.index, base := b.advance.index } := by
      rw [turn, if_neg hlast, if_pos rfl]
    refine ⟨{ s with opened := [] }, by rw [turnStops, if_neg hlast, hstops], ?_, ?_⟩
    · rw [hturn, toolCount, if_neg hlast]
      exact ⟨h.1, rfl, hnext⟩
    · rw [hturn, toolCount, if_neg hlast]

variable {base o : ℕ}

theorem mem_opened (h : ToolsShown base n s) :
    (base + o, BlockKind.toolUse) ∈ s.opened ↔ o < n := by
  rw [h.opened]
  simp

theorem accept_toolEvents (h : ToolsShown base n s) (o : ℕ)
    (c : ToolCallResponse) :
    EventState.accept reason s (toolEvents (base + o) c) =
      if c.name ≠ "" then
        if o = n then
          some { s with next := base + o + 1, opened := s.opened ++ [(base + o, .toolUse)] }
        else none
      else if c.arguments ≠ "" ∧ n ≤ o then none
      else some s := by
  have hnext : base + o = s.next ↔ o = n := by
    rw [h.next]
    omega
  by_cases hname : c.name = ""
  · by_cases hargs : c.arguments = ""
    · simp [toolEvents, hname, hargs, EventState.accept]
    · have hmem := mem_opened (o := o) h
      by_cases ho : o < n
      · have hlt : ¬ n ≤ o := by omega
        simp [toolEvents, hname, hargs, EventState.accept, EventState.step, h.phase,
          ClaudeDelta.kind, hmem, ho, hlt]
      · have hle : n ≤ o := by omega
        simp [toolEvents, hname, hargs, EventState.accept, EventState.step, h.phase,
          ClaudeDelta.kind, hmem, ho, hle]
  · by_cases ho : o = n
    · by_cases hargs : c.arguments = ""
      · simp [toolEvents, hname, hargs, EventState.accept, EventState.step, h.phase, h.next, ho,
          ClaudeBlock.kind]
      · simp [toolEvents, hname, hargs, EventState.accept, EventState.step, h.phase, h.next, ho,
          ClaudeDelta.kind, ClaudeBlock.kind]
    · simp [toolEvents, hname, EventState.accept, EventState.step, h.phase, hnext, ho]

/-- A block will be stopped that cannot have been started. -/
structure Doomed (b : OpenBlocks) (s : EventState) (n : ℕ) : Prop where
  tools : b.last = .tools
  missing : s.next ≤ b.base + b.top
  ahead : s.next < b.base + n
  opened : ∀ x ∈ s.opened, x.1 < s.next

theorem accept_convertAll_cons (b : OpenBlocks) (s : EventState) (x : StreamItem)
    (xs : List StreamItem) (tail : List ClaudeEvent) :
    EventState.accept reason s
        ((b.convertAll (x :: xs)).1 ++ ((b.convertAll (x :: xs)).2.stops ++ tail)) =
      (EventState.accept reason s (b.convert x).1).bind fun t =>
        EventState.accept reason t (((b.convert x).2.convertAll xs).1 ++
          (((b.convert x).2.convertAll xs).2.stops ++ tail)) := by
  rw [convertAll, append_assoc, EventState.accept_append]

theorem Doomed.accept_stops (h : b.Doomed s n) :
    EventState.accept reason s b.stops = none := by
  rw [stops_tools h.tools]
  refine EventState.accept_stops_none (j := b.base + b.top) ?_ fun hmem => ?_
  · exact mem_map.2 ⟨b.top, mem_range.2 (Nat.lt_succ_self _), rfl⟩
  · obtain ⟨x, hx, hxn⟩ := mem_map.1 hmem
    have hlt := h.opened x hx
    have hle := h.missing
    omega

theorem Doomed.accept_say (h : b.Doomed s n) (htype : type ≠ .tools)
    (block : ClaudeBlock) (delta : ClaudeDelta) :
    EventState.accept reason s (b.say type block delta).1 = none := by
  have hlast : b.last ≠ type := by
    rw [h.tools]
    exact htype.symm
  rw [say, turnStops, if_neg hlast, append_assoc, EventState.accept_append, h.accept_stops]
  rfl

variable {tail : List ClaudeEvent}

theorem Doomed.accept_none :
    ∀ {xs : List StreamItem} {b : OpenBlocks} {n : ℕ}, b.Doomed s n →
      Numbered n (StreamItem.calls xs) →
      EventState.accept reason s
        ((b.convertAll xs).1 ++ ((b.convertAll xs).2.stops ++ tail)) = none
  | [], b, n, h, _ => by
    rw [convertAll, nil_append, EventState.accept_append, h.accept_stops]
    rfl
  | .thinking t :: xs, b, n, h, _ => by
    rw [accept_convertAll_cons, convert, h.accept_say (by decide)]
    rfl
  | .text t :: xs, b, n, h, _ => by
    rw [accept_convertAll_cons, convert, h.accept_say (by decide)]
    rfl
  | .call o c :: xs, b, n, h, hnum => by
    have hturn : b.turn .tools = b := if_pos h.tools
    have hconv : b.convert (.call o c) =
        (toolEvents (b.base + o) c,
          { b with top := max b.top o, index := b.base + max b.top o }) := by
      simp [convert, hturn, turnStops, h.tools]
    have hlater : Numbered n (StreamItem.calls xs) →
        EventState.accept reason s (((b.convert (.call o c)).2.convertAll xs).1 ++
          (((b.convert (.call o c)).2.convertAll xs).2.stops ++ tail)) = none := by
      intro hnum
      rw [hconv]
      refine Doomed.accept_none ⟨h.tools, ?_, h.ahead, h.opened⟩ hnum
      exact h.missing.trans (Nat.add_le_add_left (Nat.le_max_left _ _) _)
    simp only [StreamItem.calls, Numbered] at hnum
    have hahead := h.ahead
    rw [accept_convertAll_cons]
    by_cases hname : c.name = ""
    · rw [if_neg (not_not_intro hname)] at hnum
      rcases hstep : EventState.accept reason s (b.convert (.call o c)).1 with _ | s'
      · rfl
      · have hs : s' = s := by
          rw [hconv] at hstep
          by_cases hargs : c.arguments = ""
          · simpa [toolEvents, hname, hargs, EventState.accept, eq_comm] using hstep
          · simp only [toolEvents, hname, ne_eq, not_true_eq_false, if_false, hargs,
              not_false_eq_true, if_true, nil_append, EventState.accept, foldlM_cons,
              EventState.step] at hstep
            split_ifs at hstep
            · simpa [eq_comm] using hstep
            · simp at hstep
        rw [Option.bind_some, hs]
        exact hlater hnum.2
    · rw [if_pos hname] at hnum
      have hne : b.base + o ≠ s.next := by
        rw [hnum.1]
        omega
      have hnone : EventState.accept reason s (b.convert (.call o c)).1 = none := by
        rw [hconv]
        simp [toolEvents, hname, EventState.accept, EventState.step, hne]
      rw [hnone]
      rfl

theorem shown_call
    (hmax : (b.turn .tools).top = b.toolCount - 1) (hn : n = max b.toolCount (o + 1))
    (ho : o ≤ b.toolCount)
    (h : ToolsShown (b.turn .tools).base n s) (c : ToolCallResponse) :
    (b.convert (.call o c)).2.Shown s ∧ (b.convert (.call o c)).2.toolCount = n := by
  have hlast : (b.convert (.call o c)).2.last = .tools := b.turn_last .tools
  have hcount : (b.convert (.call o c)).2.top + 1 = n := by
    have hm : (b.convert (.call o c)).2.top = max (b.turn .tools).top o := rfl
    rw [hm, hmax, hn]
    omega
  refine ⟨(shown_tools hlast).2 ?_, ?_⟩
  · rw [hcount]
    exact h
  · rw [toolCount, if_pos hlast, hcount]

theorem toolCount_say (b : OpenBlocks) (htype : type ≠ .tools)
    (block : ClaudeBlock) (delta : ClaudeDelta) : (b.say type block delta).2.toolCount = 0 := by
  rw [toolCount, if_neg]
  rw [say, turn_last]
  exact htype

theorem accept_call (reason : String) (h : b.Shown s) (o : ℕ)
    (c : ToolCallResponse) :
    ∃ s', ToolsShown (b.turn .tools).base b.toolCount s' ∧
      (b.turn .tools).top = b.toolCount - 1 ∧
      EventState.accept reason s (b.convert (.call o c)).1 =
        if c.name ≠ "" then
          if o = b.toolCount then
            some { s' with
              next := (b.turn .tools).base + o + 1
              opened := s'.opened ++ [((b.turn .tools).base + o, .toolUse)] }
          else none
        else if c.arguments ≠ "" ∧ b.toolCount ≤ o then none
        else some s' := by
  obtain ⟨s', hs', htools, hmax⟩ := accept_turn_tools reason h
  refine ⟨s', htools, hmax, ?_⟩
  rw [convert, EventState.accept_append, hs', Option.bind_some, accept_toolEvents htools]

theorem accept_item (reason : String) (h : b.Shown s)
    (hfits : x.FitsAt b.toolCount) :
    ∃ s', EventState.accept reason s (b.convert x).1 = some s' ∧ (b.convert x).2.Shown s' ∧
      (b.convert x).2.toolCount = x.after b.toolCount := by
  cases x with
  | thinking t =>
    obtain ⟨s', hs', hshown⟩ := accept_say reason h (.inr ⟨rfl, rfl⟩) ClaudeBlock.thinking rfl
      (ClaudeDelta.thinking t) rfl
    exact ⟨s', hs', hshown, toolCount_say b (by decide) _ _⟩
  | text t =>
    obtain ⟨s', hs', hshown⟩ := accept_say reason h (.inl ⟨rfl, rfl⟩) ClaudeBlock.text rfl
      (ClaudeDelta.text t) rfl
    exact ⟨s', hs', hshown, toolCount_say b (by decide) _ _⟩
  | call o c =>
    obtain ⟨s', htools, hmax, haccept⟩ := accept_call reason h o c
    rw [haccept]
    simp only [StreamItem.FitsAt] at hfits
    simp only [StreamItem.after]
    by_cases hname : c.name = ""
    · rw [if_neg (not_not_intro hname)] at hfits ⊢
      rw [if_neg (not_not_intro hname)]
      obtain ⟨hshown, hcount⟩ := shown_call hmax (by omega) hfits.le htools c
      exact ⟨s', if_neg (by omega), hshown, hcount⟩
    · rw [if_pos hname] at hfits ⊢
      rw [if_pos hname]
      have hgrown : ToolsShown (b.turn .tools).base (b.toolCount + 1)
          { s' with
            next := (b.turn .tools).base + o + 1
            opened := s'.opened ++ [((b.turn .tools).base + o, .toolUse)] } := by
        refine ⟨htools.phase, ?_, by rw [hfits]; rfl⟩
        rw [htools.opened, hfits, range_succ]
        simp
      obtain ⟨hshown, hcount⟩ := shown_call hmax (by omega) hfits.le hgrown c
      exact ⟨_, if_pos hfits, hshown, hcount⟩

theorem accept_misfit (h : b.Shown s)
    {xs : List StreamItem} (hnum : Numbered n (StreamItem.calls (x :: xs)))
    (hmis : ¬ x.FitsAt b.toolCount) (tail : List ClaudeEvent) :
    EventState.accept reason s
      ((b.convertAll (x :: xs)).1 ++ ((b.convertAll (x :: xs)).2.stops ++ tail)) = none := by
  cases x with
  | thinking t | text t => exact absurd trivial hmis
  | call o c =>
    obtain ⟨s', htools, hmax, haccept⟩ := accept_call reason h o c
    simp only [StreamItem.calls, Numbered] at hnum
    simp only [StreamItem.FitsAt] at hmis
    rw [accept_convertAll_cons, haccept]
    by_cases hname : c.name = ""
    · rw [if_neg (not_not_intro hname)] at hnum hmis ⊢
      by_cases hargs : c.arguments = ""
      · have hdoomed : (b.convert (.call o c)).2.Doomed s' n := by
          have hm : (b.convert (.call o c)).2.top = max (b.turn .tools).top o := rfl
          refine ⟨b.turn_last .tools, ?_, ?_, fun x hx => ?_⟩
          · rw [hm, htools.next]
            change _ ≤ (b.turn .tools).base + _
            omega
          · rw [htools.next]
            change _ < (b.turn .tools).base + _
            omega
          · rw [htools.opened] at hx
            simp only [map_map, mem_map, mem_range] at hx
            obtain ⟨j, hj, rfl⟩ := hx
            rw [htools.next]
            exact Nat.add_lt_add_left hj _
        rw [if_neg (by simp [hargs]), Option.bind_some, hdoomed.accept_none hnum.2]
      · rw [if_pos ⟨hargs, by omega⟩, Option.bind_none]
    · rw [if_pos hname] at hmis ⊢
      rw [if_neg hmis, Option.bind_none]

theorem accept_items (reason : String) : ∀ {xs : List StreamItem} {b : OpenBlocks}
    {s : EventState}, b.Shown s → StreamItem.Fits b.toolCount xs →
    ∃ s', EventState.accept reason s (b.convertAll xs).1 = some s' ∧ (b.convertAll xs).2.Shown s' ∧
      (b.convertAll xs).2.toolCount = xs.foldl StreamItem.after b.toolCount
  | [], b, s, h, _ => ⟨s, rfl, h, rfl⟩
  | x :: xs, b, s, h, hfits => by
    obtain ⟨s', hs', hshown, hcount⟩ := accept_item reason h hfits.1
    obtain ⟨s'', hs'', hshown', hcount'⟩ := accept_items reason hshown (hcount ▸ hfits.2)
    refine ⟨s'', ?_, hshown', ?_⟩
    · rw [convertAll, EventState.accept_append, hs', Option.bind_some, hs'']
    · rw [foldl_cons, ← hcount]
      exact hcount'

theorem accept_iff {ok : Bool}
    (htail : ∀ n, (EventState.accept reason { phase := .body, next := n } tail).any
      (·.phase = .stopped) = ok) :
    ∀ {xs : List StreamItem} {b : OpenBlocks} {s : EventState} {n : ℕ}, b.Shown s →
      Numbered n (StreamItem.calls xs) →
      ((EventState.accept reason s
          ((b.convertAll xs).1 ++ ((b.convertAll xs).2.stops ++ tail))).any
            (·.phase = .stopped) = true ↔
        StreamItem.Fits b.toolCount xs ∧ ok = true)
  | [], b, s, n, h, _ => by
    obtain ⟨hstops, -⟩ := accept_stops reason h
    rw [convertAll, nil_append, EventState.accept_append, hstops, Option.bind_some,
      StreamItem.Fits, true_and, ← htail s.next, ← h.1]
  | x :: xs, b, s, n, h, hnum => by
    by_cases hfits : x.FitsAt b.toolCount
    · obtain ⟨s', hs', hshown, hcount⟩ := accept_item reason h hfits
      obtain ⟨m, hm⟩ := StreamItem.numbered_tail hnum
      rw [accept_convertAll_cons, hs', Option.bind_some, accept_iff htail hshown hm, hcount,
        StreamItem.Fits]
      simp [hfits]
    · rw [accept_misfit h hnum hfits, StreamItem.Fits]
      simp [hfits]

end OpenBlocks

end AggreApi
