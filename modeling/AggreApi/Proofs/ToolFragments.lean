import AggreApi.ChatFormat
import AggreApi.Lib.Fragments

/-!
# Tool calls in fragments

The fragments of the tool calls of a stream, with their numbers. A fragment with a name starts the
next tool call, and one without a name goes on with the arguments of the one that has its number.
-/

namespace AggreApi

open List

variable {x : ℕ × ToolCallResponse} {l : List (ℕ × ToolCallResponse)}

def choiceDeltas (chunks : List StreamChunk) (i : ℕ) : List StreamDelta :=
  ((chunks.flatMap (·.choices)).filter (·.index = i)).map (·.delta)

def StreamDelta.offsets (d : StreamDelta) : List (ℕ × ToolCallResponse) :=
  d.calls.zipIdx.map fun c => (c.1.index.getD c.2, c.1)

def Numbered : ℕ → List (ℕ × ToolCallResponse) → Prop
  | _, [] => True
  | n, (o, c) :: l => if c.name ≠ "" then o = n ∧ Numbered (n + 1) l else o < n ∧ Numbered n l

def namedCalls (l : List (ℕ × ToolCallResponse)) : ℕ := l.countP (·.2.name ≠ "")

theorem namedCalls_cons (o : ℕ) (c : ToolCallResponse) (l : List (ℕ × ToolCallResponse)) :
    namedCalls ((o, c) :: l) = namedCalls l + if c.name = "" then 0 else 1 := by
  by_cases hname : c.name = "" <;> simp [namedCalls, hname]

theorem numbered_append_iff : ∀ {l l' : List (ℕ × ToolCallResponse)} {n : ℕ},
    Numbered n (l ++ l') ↔ Numbered n l ∧ Numbered (n + namedCalls l) l'
  | [], _, _ => (and_iff_right trivial).symm
  | (o, c) :: l, l', n => by
    rw [cons_append, Numbered, Numbered, namedCalls_cons]
    by_cases hname : c.name = ""
    · rw [if_neg (not_not_intro hname), if_neg (not_not_intro hname), if_pos hname, add_zero,
        numbered_append_iff, and_assoc]
    · rw [if_pos hname, if_pos hname, if_neg hname, numbered_append_iff, and_assoc, add_right_comm,
        ← add_assoc]

theorem Numbered.lt : ∀ {l : List (ℕ × ToolCallResponse)} {n : ℕ}, Numbered n l →
    ∀ x ∈ l, x.1 < n + namedCalls l
  | (o, c) :: l, n, h, x, hx => by
    rw [Numbered] at h
    rw [namedCalls_cons]
    by_cases hname : c.name = ""
    · rw [if_neg (not_not_intro hname)] at h
      rw [if_pos hname, add_zero]
      rcases mem_cons.1 hx with rfl | hx
      · exact h.1.trans_le (Nat.le_add_right _ _)
      · exact Numbered.lt h.2 x hx
    · rw [if_pos hname] at h
      rw [if_neg hname]
      rcases mem_cons.1 hx with rfl | hx
      · change o < _
        omega
      · have hlt := Numbered.lt h.2 x hx
        omega

theorem Numbered.exists_eq : ∀ {l : List (ℕ × ToolCallResponse)} {n m : ℕ}, Numbered n l →
    m < namedCalls l → ∃ x ∈ l, x.1 = n + m
  | (o, c) :: l, n, m, h, hm => by
    rw [Numbered] at h
    rw [exists_mem_cons_iff]
    rw [namedCalls_cons] at hm
    by_cases hname : c.name = ""
    · rw [if_neg (not_not_intro hname)] at h
      rw [if_pos hname] at hm
      exact .inr (Numbered.exists_eq h.2 hm)
    · rw [if_pos hname] at h
      rw [if_neg hname] at hm
      rcases m with _ | m
      · exact .inl h.1
      · obtain ⟨x, hx, hxm⟩ := Numbered.exists_eq (m := m) h.2 (by omega)
        exact .inr ⟨x, hx, by omega⟩

/-- A fragment added to the tool calls there are. -/
def addCall (tools : List ToolCallResponse) (x : ℕ × ToolCallResponse) : List ToolCallResponse :=
  if x.2.name ≠ "" then
    tools ++ [{ id := x.2.id, name := x.2.name, arguments := x.2.arguments }]
  else tools.modify x.1 fun t => { t with arguments := t.arguments ++ x.2.arguments }

def toolCallsOf (l : List (ℕ × ToolCallResponse)) : List ToolCallResponse := l.foldl addCall []

/-- How long the arguments are in all. -/
def argumentsLength (tools : List ToolCallResponse) : ℕ := (tools.map (·.arguments.length)).sum

theorem length_foldl_addCall : ∀ (l : List (ℕ × ToolCallResponse)) (tools : List ToolCallResponse),
    (l.foldl addCall tools).length = tools.length + namedCalls l
  | [], _ => rfl
  | x :: l, tools => by
    rw [foldl_cons, length_foldl_addCall, addCall]
    by_cases hname : x.2.name = ""
    · simp [namedCalls, hname]
    · simp [namedCalls, hname]
      omega

variable (tools : List ToolCallResponse)

theorem addCall_blank
    (hname : x.2.name = "") (hargs : x.2.arguments = "") : addCall tools x = tools := by
  have hid : (fun t : ToolCallResponse => { t with arguments := t.arguments ++ "" }) = id := by
    funext t
    rw [String.append_empty]
    rfl
  rw [addCall, if_neg (not_not_intro hname), hargs, hid, modify_id]

theorem foldl_addCall_blank : ∀ {l : List (ℕ × ToolCallResponse)},
    (∀ c ∈ l.map Prod.snd, c.name = "" ∧ c.arguments = "") →
    ∀ tools, l.foldl addCall tools = tools
  | [], _, _ => rfl
  | x :: l, h, tools => by
    obtain ⟨hx, hl⟩ := forall_mem_cons.1 h
    rw [foldl_cons, addCall_blank tools hx.1 hx.2, foldl_addCall_blank hl]

theorem namedCalls_append (l l' : List (ℕ × ToolCallResponse)) :
    namedCalls (l ++ l') = namedCalls l + namedCalls l' := countP_append

theorem namedCalls_eq_zero_iff : namedCalls l = 0 ↔ ∀ c ∈ l.map Prod.snd, c.name = "" := by
  rw [namedCalls, countP_eq_zero, forall_mem_map]
  simp

theorem argumentsLength_append (tools' : List ToolCallResponse) :
    argumentsLength (tools ++ tools') = argumentsLength tools + argumentsLength tools' := by
  rw [argumentsLength, map_append, sum_append, argumentsLength, argumentsLength]

theorem argumentsLength_eq_zero_iff {tools : List ToolCallResponse} :
    argumentsLength tools = 0 ↔ ∀ c ∈ tools, c.arguments = "" := by
  simp [argumentsLength, sum_eq_zero_iff, String.length_eq_zero_iff]

theorem argumentsLength_modify (i : ℕ) (s : String) :
    argumentsLength (tools.modify i fun t => { t with arguments := t.arguments ++ s }) =
      argumentsLength tools + if i < tools.length then s.length else 0 :=
  sum_map_modify (w := fun t : ToolCallResponse => t.arguments.length)
    (fun t => String.length_append t.arguments s) tools i

theorem length_addCall_fragment
    (hname : x.2.name = "") : (addCall tools x).length = tools.length := by
  rw [addCall, if_neg (not_not_intro hname), length_modify]

theorem argumentsLength_addCall_fragment {tools : List ToolCallResponse} (hx : x.1 < tools.length)
    (hname : x.2.name = "") :
    argumentsLength (addCall tools x) = argumentsLength tools + x.2.arguments.length := by
  rw [addCall, if_neg (not_not_intro hname), argumentsLength_modify, if_pos hx]

theorem argumentsLength_foldl_addCall : ∀ {l : List (ℕ × ToolCallResponse)}
    {tools : List ToolCallResponse}, Numbered tools.length l →
    argumentsLength (l.foldl addCall tools) =
      argumentsLength tools + argumentsLength (l.map Prod.snd)
  | [], tools, _ => rfl
  | (o, c) :: l, tools, h => by
    rw [Numbered] at h
    obtain ⟨hargs, hl⟩ : argumentsLength (addCall tools (o, c)) =
        argumentsLength tools + c.arguments.length ∧ Numbered (addCall tools (o, c)).length l := by
      split_ifs at h with hname
      · rw [addCall, if_pos hname, length_append]
        exact ⟨by simp [argumentsLength], h.2⟩
      · rw [length_addCall_fragment tools (not_not.1 hname)]
        exact ⟨argumentsLength_addCall_fragment h.1 (not_not.1 hname), h.2⟩
    rw [foldl_cons, argumentsLength_foldl_addCall hl, hargs, Nat.add_assoc]
    rfl

theorem argumentsLength_toolCallsOf (h : Numbered 0 l) :
    argumentsLength (toolCallsOf l) = argumentsLength (l.map Prod.snd) :=
  (@argumentsLength_foldl_addCall l [] h).trans (Nat.zero_add _)

theorem length_toolCallsOf (l : List (ℕ × ToolCallResponse)) :
    (toolCallsOf l).length = namedCalls l :=
  (length_foldl_addCall l []).trans (Nat.zero_add _)

theorem toolCallsOf_eq_nil_iff (h : Numbered 0 l) : toolCallsOf l = [] ↔ l = [] := by
  refine ⟨fun hl => ?_, fun hl => hl ▸ rfl⟩
  rcases l with _ | ⟨⟨o, c⟩, l⟩
  · rfl
  · have hlength := length_toolCallsOf ((o, c) :: l)
    rw [Numbered] at h
    split_ifs at h with hname
    · rw [hl] at hlength
      simp [namedCalls, hname] at hlength
    · exact absurd h.1 (Nat.not_lt_zero _)

theorem foldl_addCall_named : ∀ {l : List (ℕ × ToolCallResponse)},
    (∀ c ∈ l.map Prod.snd, c.name ≠ "") → ∀ tools, l.foldl addCall tools =
      tools ++ (l.map Prod.snd).map fun c =>
        { id := c.id, name := c.name, arguments := c.arguments }
  | [], _, tools => (append_nil tools).symm
  | x :: l, h, tools => by
    obtain ⟨hx, hl⟩ := forall_mem_cons.1 h
    rw [foldl_cons, foldl_addCall_named hl, addCall, if_pos hx, append_assoc]
    rfl

theorem StreamDelta.map_snd_offsets (d : StreamDelta) : d.offsets.map Prod.snd = d.calls := by
  rw [offsets, map_map]
  exact zipIdx_map_fst 0 d.calls

theorem map_snd_flatMap_offsets (ds : List StreamDelta) :
    (ds.flatMap StreamDelta.offsets).map Prod.snd = ds.flatMap StreamDelta.calls := by
  rw [map_flatMap]
  exact flatMap_congr fun d _ => d.map_snd_offsets

end AggreApi
