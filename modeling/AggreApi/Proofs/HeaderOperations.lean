import AggreApi.Proofs.HeaderExpand

/-!
# Header operations

Run on two contexts that differ in the client's `Authorization` header only, operations that do not
name it do the same; and a text that neither the administrator nor the client wrote does not come up
in the header override.
-/

namespace AggreApi

open List Except Option String

/-- `set_header`, `delete_header`, `copy_header`, `move_header` and `pass_headers`, without
conditions. -/
def ParamOperation.IsHeaderOperation (op : ParamOperation) : Prop :=
  op.conditions = [] ∧
    op.mode ∈ ["set_header", "delete_header", "copy_header", "move_header", "pass_headers"]

def ParamOperation.headerNames {Body : Type} (eng : OverrideEngine Body) (op : ParamOperation) :
    List String :=
  if op.mode = "set_header" ∨ op.mode = "delete_header" then [op.path]
  else if op.mode = "copy_header" ∨ op.mode = "move_header" then
    [OverrideEngine.headerOr op.source op.path, OverrideEngine.headerOr op.target op.path]
  else if op.mode = "pass_headers" then (eng.parseHeaderPassThroughNames op.value).toOption.getD []
  else []

def ParamOperation.AvoidsAuthorization {Body : Type} (eng : OverrideEngine Body)
    (op : ParamOperation) : Prop :=
  ∀ name ∈ op.headerNames eng, normalizeHeaderContextKey name ≠ "authorization"

inductive SameResult {ε α β : Type} (R : α → β → Prop) : Except ε α → Except ε β → Prop
  | error (e : ε) : SameResult R (.error e) (.error e)
  | ok {a : α} {b : β} (h : R a b) : SameResult R (.ok a) (.ok b)

theorem SameResult.out {ε α β : Type} {R : α → β → Prop} {x : Except ε α} {y : Except ε β}
    (h : SameResult R x y) :
    (∃ e, x = .error e ∧ y = .error e) ∨ ∃ a b, x = .ok a ∧ y = .ok b ∧ R a b := by
  cases h with
  | error e => exact .inl ⟨e, rfl, rfl⟩
  | ok h => exact .inr ⟨_, _, rfl, rfl, h⟩

namespace OverrideContext

/-- The contexts have the same header override, and client headers that agree except at
`Authorization`. -/
def Alike (ctx ctx' : OverrideContext) : Prop :=
  ctx.headerOverride = ctx'.headerOverride ∧
    ∀ key, key ≠ "authorization" → ctx.requestHeaders.lookup key = ctx'.requestHeaders.lookup key

variable {ctx ctx' : OverrideContext} {name target : String}

theorem Alike.getHeaderValue (h : ctx.Alike ctx')
    (hname : normalizeHeaderContextKey name ≠ "authorization") :
    ctx.getHeaderValue name = ctx'.getHeaderValue name := by
  simp [OverrideContext.getHeaderValue, findSome?_cons, h.1, h.2 _ hname]

theorem Alike.resolveHeaderOverrideValue (h : ctx.Alike ctx')
    (hname : normalizeHeaderContextKey name ≠ "authorization") (value : Json) :
    ctx.resolveHeaderOverrideValue name value = ctx'.resolveHeaderOverrideValue name value := by
  cases value with
  | obj =>
    simp [OverrideContext.resolveHeaderOverrideValue, resolveByMapping, h.getHeaderValue hname]
  | _ => rfl

theorem Alike.setHeaderOverride (h : ctx.Alike ctx')
    (hname : normalizeHeaderContextKey name ≠ "authorization") (value : Json) (keepOrigin : Bool) :
    SameResult Alike (ctx.setHeaderOverride name value keepOrigin)
      (ctx'.setHeaderOverride name value keepOrigin) := by
  have hnormal : normalizeHeaderContextKey (normalizeHeaderContextKey name) ≠ "authorization" := by
    rwa [normalizeHeaderContextKey_idem]
  have hresolve := h.resolveHeaderOverrideValue hnormal value
  simp only [OverrideContext.setHeaderOverride, ← h.1, ← hresolve]
  split_ifs
  · exact .error _
  · exact .ok h
  · rcases ctx.resolveHeaderOverrideValue (normalizeHeaderContextKey name) value with e | _ | v
    · exact .error e
    · exact .ok ⟨rfl, h.2⟩
    · exact .ok ⟨rfl, h.2⟩

theorem Alike.deleteHeaderOverride (h : ctx.Alike ctx') (name : String) :
    SameResult Alike (ctx.deleteHeaderOverride name) (ctx'.deleteHeaderOverride name) := by
  simp only [OverrideContext.deleteHeaderOverride, ← h.1]
  split_ifs
  · exact .error _
  · exact .ok ⟨rfl, h.2⟩

theorem Alike.copyHeader (h : ctx.Alike ctx')
    (hname : normalizeHeaderContextKey name ≠ "authorization")
    (htarget : normalizeHeaderContextKey target ≠ "authorization") (keepOrigin : Bool) :
    SameResult (Option.Rel Alike) (ctx.copyHeader name target keepOrigin)
      (ctx'.copyHeader name target keepOrigin) := by
  simp only [OverrideContext.copyHeader, ← h.getHeaderValue hname]
  split_ifs
  · exact .error _
  · cases ctx.getHeaderValue name with
    | none => exact .ok .none
    | some value =>
      rcases (h.setHeaderOverride htarget (.str value) keepOrigin).out with
        ⟨e, hx, hy⟩ | ⟨a, b, hx, hy, hset⟩
      · simp only [hx, hy]
        exact .error e
      · simp only [hx, hy]
        exact .ok (.some hset)

theorem Alike.moveHeader (h : ctx.Alike ctx')
    (hname : normalizeHeaderContextKey name ≠ "authorization")
    (htarget : normalizeHeaderContextKey target ≠ "authorization") (keepOrigin : Bool) :
    SameResult (Option.Rel Alike) (ctx.moveHeader name target keepOrigin)
      (ctx'.moveHeader name target keepOrigin) := by
  rw [OverrideContext.moveHeader, OverrideContext.moveHeader]
  by_cases hblank : normalizeHeaderContextKey name = "" ∨ normalizeHeaderContextKey target = ""
  · rw [if_pos hblank, if_pos hblank]
    exact .error _
  rw [if_neg hblank, if_neg hblank]
  rcases (h.copyHeader hname htarget keepOrigin).out with ⟨e, hx, hy⟩ | ⟨a, b, hx, hy, hcopy⟩
  · rw [hx, hy]
    exact .error e
  rw [hx, hy]
  cases hcopy with
  | none => exact .ok .none
  | some hcopy =>
    by_cases hsame : normalizeHeaderContextKey name = normalizeHeaderContextKey target
    · simp only [if_pos hsame]
      exact .ok (.some hcopy)
    · simp only [if_neg hsame]
      rcases (hcopy.deleteHeaderOverride name).out with
        ⟨e, hx, hy⟩ | ⟨a, b, hx, hy, hdelete⟩
      · rw [hx, hy]
        exact .error e
      · rw [hx, hy]
        exact .ok (.some hdelete)

end OverrideContext

namespace OverrideEngine

open OverrideContext

variable {Body : Type} {eng : OverrideEngine Body} {ctx ctx' : OverrideContext}

/-- The contexts are alike, and the bodies the same. -/
def AlikeWith (r r' : Body × OverrideContext) : Prop := r.1 = r'.1 ∧ r.2.Alike r'.2

theorem passHeaders_alike (keepOrigin : Bool) : ∀ {names : List String}
    {ctx ctx' : OverrideContext},
    (∀ name ∈ names, normalizeHeaderContextKey name ≠ "authorization") → ctx.Alike ctx' →
    SameResult Alike (passHeaders keepOrigin names ctx) (passHeaders keepOrigin names ctx')
  | [], _, _, _, h => .ok h
  | name :: names, ctx, ctx', hnames, h => by
    have hname := hnames name mem_cons_self
    have hrest : ∀ n ∈ names, normalizeHeaderContextKey n ≠ "authorization" := fun n hn =>
      hnames n (mem_cons_of_mem _ hn)
    rw [passHeaders, passHeaders]
    rcases (h.copyHeader hname hname keepOrigin).out with ⟨e, hx, hy⟩ | ⟨a, b, hx, hy, hcopy⟩
    · rw [hx, hy]
      exact .error e
    · rw [hx, hy]
      cases hcopy with
      | none => exact passHeaders_alike keepOrigin hrest h
      | some hcopy => exact passHeaders_alike keepOrigin hrest hcopy

section modes
variable {op : ParamOperation} (body : Body) (ctx : OverrideContext)

theorem applyMode_set (h : op.mode = "set_header") : eng.applyMode op body ctx =
    withBody body (ctx.setHeaderOverride op.path op.value op.keepOrigin) := by
  simp [applyMode, h, bodyModes]

theorem applyMode_delete (h : op.mode = "delete_header") : eng.applyMode op body ctx =
    withBody body (ctx.deleteHeaderOverride op.path) := by
  simp [applyMode, h, bodyModes]

theorem applyMode_copy (h : op.mode = "copy_header") : eng.applyMode op body ctx =
    withBodyOr body ctx
      (ctx.copyHeader (headerOr op.source op.path) (headerOr op.target op.path) op.keepOrigin) := by
  simp [applyMode, h, bodyModes]

theorem applyMode_move (h : op.mode = "move_header") : eng.applyMode op body ctx =
    withBodyOr body ctx
      (ctx.moveHeader (headerOr op.source op.path) (headerOr op.target op.path) op.keepOrigin) := by
  simp [applyMode, h, bodyModes]

theorem applyMode_pass (h : op.mode = "pass_headers") {names : List String}
    (hparse : eng.parseHeaderPassThroughNames op.value = .ok names) :
    eng.applyMode op body ctx = withBody body (passHeaders op.keepOrigin names ctx) := by
  simp [applyMode, h, bodyModes, hparse]

theorem applyMode_pass_error (h : op.mode = "pass_headers") {e : String}
    (hparse : eng.parseHeaderPassThroughNames op.value = .error e) :
    eng.applyMode op body ctx = .error e := by
  simp [applyMode, h, bodyModes, hparse]

end modes

theorem withBody_alike {x y : Except String OverrideContext} (h : SameResult Alike x y)
    (body : Body) : SameResult AlikeWith (withBody body x) (withBody body y) := by
  cases h with
  | error e => exact .error e
  | ok h => exact .ok ⟨rfl, h⟩

theorem withBodyOr_alike {x y : Except String (Option OverrideContext)}
    (h : SameResult (Option.Rel Alike) x y) (hctx : ctx.Alike ctx') (body : Body) :
    SameResult AlikeWith (withBodyOr body ctx x) (withBodyOr body ctx' y) := by
  cases h with
  | error e => exact .error e
  | ok h =>
    cases h with
    | none => exact .ok ⟨rfl, hctx⟩
    | some h => exact .ok ⟨rfl, h⟩

theorem applyMode_alike {op : ParamOperation} (hop : op.IsHeaderOperation)
    (havoid : op.AvoidsAuthorization eng) (h : ctx.Alike ctx') (body : Body) :
    SameResult AlikeWith (eng.applyMode op body ctx) (eng.applyMode op body ctx') := by
  obtain ⟨-, hmode⟩ := hop
  simp only [mem_cons, not_mem_nil, or_false] at hmode
  rw [ParamOperation.AvoidsAuthorization, ParamOperation.headerNames] at havoid
  rcases hmode with hmode | hmode | hmode | hmode | hmode
  · rw [applyMode_set body ctx hmode, applyMode_set body ctx' hmode]
    exact withBody_alike (h.setHeaderOverride (havoid _ (by simp [hmode])) _ _) body
  · rw [applyMode_delete body ctx hmode, applyMode_delete body ctx' hmode]
    exact withBody_alike (h.deleteHeaderOverride _) body
  · rw [applyMode_copy body ctx hmode, applyMode_copy body ctx' hmode]
    exact withBodyOr_alike (h.copyHeader (havoid _ (by simp [hmode]))
      (havoid _ (by simp [hmode])) _)
      h body
  · rw [applyMode_move body ctx hmode, applyMode_move body ctx' hmode]
    exact withBodyOr_alike (h.moveHeader (havoid _ (by simp [hmode]))
      (havoid _ (by simp [hmode])) _)
      h body
  · cases hparse : eng.parseHeaderPassThroughNames op.value with
    | error e =>
      rw [applyMode_pass_error body ctx hmode hparse, applyMode_pass_error body ctx' hmode hparse]
      exact .error e
    | ok =>
      rw [applyMode_pass body ctx hmode hparse, applyMode_pass body ctx' hmode hparse]
      refine withBody_alike (passHeaders_alike _ (fun name hname => havoid name ?_) h) body
      simpa [hmode, hparse, Except.toOption] using hname

theorem applyOperations_alike : ∀ {ops : List ParamOperation} {body : Body}
    {ctx ctx' : OverrideContext},
    (∀ op ∈ ops, op.IsHeaderOperation ∧ op.AvoidsAuthorization eng) → ctx.Alike ctx' →
    SameResult AlikeWith (eng.applyOperations ops body ctx) (eng.applyOperations ops body ctx')
  | [], _, _, _, _, h => .ok ⟨rfl, h⟩
  | op :: ops, body, ctx, ctx', hops, h => by
    obtain ⟨hop, havoid⟩ := hops op mem_cons_self
    have hrest := fun o ho => hops o (mem_cons_of_mem _ ho)
    rw [applyOperations, applyOperations, hop.1, isEmpty_nil]
    simp only [if_true]
    rcases (applyMode_alike hop havoid h body).out with
      ⟨e, hx, hy⟩ | ⟨⟨b, c⟩, ⟨b', c'⟩, hx, hy, hbody, hctx⟩
    · rw [hx, hy]
      exact .error e
    · rw [hx, hy, show b = b' from hbody]
      exact applyOperations_alike hrest hctx

theorem applyParamOverride_alike {paramOverride : JsonObject} (body : Body)
    (hops : ∀ op ∈ (tryParseOperations paramOverride).getD [],
      op.IsHeaderOperation ∧ op.AvoidsAuthorization eng) (h : ctx.Alike ctx') :
    SameResult AlikeWith (eng.applyParamOverride body paramOverride ctx)
      (eng.applyParamOverride body paramOverride ctx') := by
  simp only [applyParamOverride]
  cases htry : tryParseOperations paramOverride with
  | none =>
    generalize (if paramOverride.isEmpty then ok body
      else eng.applyLegacy body paramOverride) = legacy
    rcases legacy with e | body'
    · exact .error e
    · exact .ok ⟨rfl, h⟩
  | some =>
    generalize (if (buildLegacyParamOverride paramOverride).isEmpty then ok body
      else eng.applyLegacy body (buildLegacyParamOverride paramOverride)) = legacy
    rw [htry] at hops
    rcases legacy with e | body'
    · exact .error e
    · exact applyOperations_alike hops h

end OverrideEngine

def HeaderMap.Free (p : String) (m : HeaderMap) : Prop :=
  ∀ e ∈ m.entries, contains e.2 p = false

section free
variable {p : String}

variable {s : String}

theorem contains_of_isInfix {t : String} (hin : s.toList <:+: t.toList)
    (h : contains t p = false) : contains s p = false := by
  rw [contains_eq_false_iff] at h ⊢
  exact fun hp => h (hp.trans hin)

theorem contains_trimSpace (h : contains s p = false) :
    contains (trimSpace s) p = false :=
  contains_of_isInfix (trimSpace_isInfix s) h

variable {m : HeaderMap} {key value : String}

theorem Free.insert (h : HeaderMap.Free p m)
    (hvalue : contains value p = false) : HeaderMap.Free p (m.insert key value) := by
  intro e he
  rcases mem_entries_insert he with rfl | he
  · exact hvalue
  · exact h e he

theorem Free.erase (h : HeaderMap.Free p m) (key : String) :
    HeaderMap.Free p (m.erase key) :=
  fun e he => h e (mem_entries_erase he)

theorem Free.lookup (h : HeaderMap.Free p m)
    (hl : m.lookup key = some value) : contains value p = false :=
  h ⟨key, value⟩ (AList.mem_lookup_iff.1 hl)

variable {token : String}

theorem contains_splitHeaderListValue {raw : String} (h : contains raw p = false)
    (htoken : token ∈ splitHeaderListValue raw) : contains token p = false := by
  obtain ⟨part, hpart, rfl⟩ := mem_map.1 (mem_of_mem_filter htoken)
  exact contains_trimSpace (contains_of_isInfix (infix_of_mem_splitChar hpart) h)

theorem formatElems_eq : ∀ elems : List Json, Json.formatElems elems = elems.map Json.format
  | [] => rfl
  | v :: elems => by rw [Json.formatElems, formatElems_eq elems, map_cons]

theorem formatMembers_eq : ∀ members : List (String × Json),
    Json.formatMembers members = members.map fun m => (m.1, m.2.format)
  | [] => rfl
  | (k, v) :: members => by rw [Json.formatMembers, formatMembers_eq members, map_cons]

variable {v : Json}

theorem format_infix_of_elem {elems : List Json} (hv : v ∈ elems) :
    v.format.toList <:+: (Json.arr elems).format.toList := by
  rw [Json.format, toList_append, toList_append, toList_intercalate,
    formatElems_eq]
  refine List.IsInfix.trans ?_ ((suffix_append _ _).isInfix.trans
    (prefix_append _ _).isInfix)
  exact infix_intercalate_of_mem (mem_map.2 ⟨_, mem_map.2 ⟨v, hv, rfl⟩, rfl⟩)

variable {k : String}

theorem format_infix_of_member {members : List (String × Json)}
    (hv : (k, v) ∈ members) : v.format.toList <:+: (Json.obj members).format.toList := by
  rw [Json.format, toList_append, toList_append, toList_intercalate,
    formatMembers_eq]
  have hmember : v.format.toList <:+: (k ++ ":" ++ v.format).toList := by
    rw [toList_append]
    exact (suffix_append _ _).isInfix
  refine hmember.trans (List.IsInfix.trans ?_ ((suffix_append _ _).isInfix.trans
    (prefix_append _ _).isInfix))
  refine infix_intercalate_of_mem (mem_map.2 ⟨_, mem_map.2 ⟨(k, v.format), ?_, rfl⟩, rfl⟩)
  rw [mem_insertionSort]
  exact mem_map.2 ⟨(k, v), hv, rfl⟩

theorem contains_of_lookup {members : JsonObject}
    (h : contains (Json.obj members).format p = false) (hl : members.lookup k = some v) :
    contains v.format p = false := by
  obtain ⟨l, r, hmembers, -⟩ := lookup_eq_some_iff.1 hl
  have hmem : (k, v) ∈ members := by simp [hmembers]
  exact contains_of_isInfix (format_infix_of_member hmem) h

mutual

theorem contains_replacementTokens : ∀ {v : Json} {tokens : List String},
    contains v.format p = false → parseHeaderReplacementTokens v = .ok tokens →
    ∀ token ∈ tokens, contains token p = false
  | .null, _, _, hparse, token, ht => by
    rw [parseHeaderReplacementTokens, ok.injEq] at hparse
    rw [← hparse] at ht
    exact absurd ht not_mem_nil
  | .str raw, _, h, hparse, token, ht => by
    rw [parseHeaderReplacementTokens, ok.injEq] at hparse
    rw [← hparse] at ht
    exact contains_splitHeaderListValue h ht
  | .arr elems, _, h, hparse, token, ht => by
    rw [parseHeaderReplacementTokens] at hparse
    cases helems : replacementTokensOfElems elems with
    | error =>
      rw [helems] at hparse
      cases hparse
    | ok =>
      rw [helems, ok.injEq] at hparse
      rw [← hparse, mem_eraseDups] at ht
      exact contains_replacementTokensOfElems
        (fun v hv => contains_of_isInfix (format_infix_of_elem hv) h) helems token ht
  | .obj _, _, _, hparse, _, _ => by
    rw [parseHeaderReplacementTokens] at hparse
    cases hparse
  | .bool b, _, h, hparse, token, ht => by
    rw [parseHeaderReplacementTokens, ok.injEq] at hparse
    rw [← hparse] at ht
    obtain ⟨text, htext, rfl⟩ := mem_map.1 (mem_of_mem_filter ht)
    rw [mem_singleton.1 htext]
    exact contains_trimSpace h
  | .num text, _, h, hparse, token, ht => by
    rw [parseHeaderReplacementTokens, ok.injEq] at hparse
    rw [← hparse] at ht
    obtain ⟨text', htext, rfl⟩ := mem_map.1 (mem_of_mem_filter ht)
    rw [mem_singleton.1 htext]
    exact contains_trimSpace h

theorem contains_replacementTokensOfElems : ∀ {elems : List Json} {tokens : List String},
    (∀ v ∈ elems, contains v.format p = false) → replacementTokensOfElems elems = .ok tokens →
    ∀ token ∈ tokens, contains token p = false
  | [], _, _, hparse, token, ht => by
    rw [replacementTokensOfElems, ok.injEq] at hparse
    rw [← hparse] at ht
    exact absurd ht not_mem_nil
  | v :: elems, _, h, hparse, token, ht => by
    rw [replacementTokensOfElems] at hparse
    split at hparse
    · cases hparse
    · rename_i tokens hv
      split at hparse
      · cases hparse
      · rename_i rest helems
        rw [ok.injEq] at hparse
        rw [← hparse, mem_append] at ht
        rcases ht with ht | ht
        · exact contains_replacementTokens (h v mem_cons_self) hv token ht
        · exact contains_replacementTokensOfElems
            (fun w hw => h w (mem_cons_of_mem _ hw)) helems token ht

end

variable {mapping : JsonObject} {tokens : List String}

theorem contains_mapToken (h : contains (Json.obj mapping).format p = false)
    (htoken : contains token p = false)
    (hmap : mapToken mapping token = .ok tokens) : ∀ t ∈ tokens, contains t p = false := by
  rw [mapToken] at hmap
  split at hmap
  · rename_i raw _ hl
    exact contains_replacementTokens (contains_of_lookup h hl) hmap
  · rename_i wildcard hl
    split_ifs at hmap
    · rw [ok.injEq] at hmap
      simp [← hmap]
    · exact contains_replacementTokens (contains_of_lookup h hl) hmap
  · cases hmap
    split_ifs
    · simp
    · simpa using htoken

theorem contains_mapTokens
    (h : contains (Json.obj mapping).format p = false) : ∀ {raw tokens : List String},
    (∀ t ∈ raw, contains t p = false) → mapTokens mapping raw = .ok tokens →
    ∀ t ∈ tokens, contains t p = false
  | [], _, _, hmap => by
    rw [mapTokens, ok.injEq] at hmap
    simp [← hmap]
  | token :: raw, _, hraw, hmap => by
    rw [mapTokens] at hmap
    split at hmap
    · cases hmap
    · rename_i tokens htoken
      split at hmap
      · cases hmap
      · rename_i more hmore
        rw [ok.injEq] at hmap
        intro t ht
        rw [← hmap, mem_append] at ht
        rcases ht with ht | ht
        · exact contains_mapToken h (hraw token mem_cons_self) htoken t ht
        · exact contains_mapTokens h (fun t ht => hraw t (mem_cons_of_mem _ ht)) hmore t ht

theorem contains_intercalate (hp : p ≠ "") (hcomma : ',' ∉ p.toList)
    (h : ∀ t ∈ tokens, contains t p = false) : contains (",".intercalate tokens) p = false := by
  rw [contains_eq_false_iff, toList_intercalate]
  intro hin
  obtain ⟨l, hl, hin⟩ := infix_of_infix_intercalate hcomma (by simpa using hp) hin
  obtain ⟨t, ht, rfl⟩ := mem_map.1 hl
  exact contains_eq_false_iff.1 (h t ht) hin

namespace OverrideContext

/-- The text lies in no header value of the context. -/
def Free (p : String) (ctx : OverrideContext) : Prop :=
  HeaderMap.Free p ctx.headerOverride ∧ HeaderMap.Free p ctx.requestHeaders

variable {ctx ctx' : OverrideContext}

variable {name : String}

theorem Free.getHeaderValue (h : ctx.Free p) {value : String}
    (hv : ctx.getHeaderValue name = some value) : contains value p = false := by
  simp only [OverrideContext.getHeaderValue] at hv
  split_ifs at hv
  obtain ⟨source, hsource, hvalue⟩ := exists_of_findSome?_eq_some hv
  have hfree : HeaderMap.Free p source := by
    simp only [mem_cons, not_mem_nil, or_false] at hsource
    rcases hsource with rfl | rfl
    · exact h.1
    · exact h.2
  split at hvalue
  · cases hvalue
  · rename_i raw hl
    rw [ite_none_left_eq_some, some.injEq] at hvalue
    rw [← hvalue.2]
    exact contains_trimSpace (AggreApi.Free.lookup hfree hl)

variable {v : String}

theorem Free.resolveByMapping (hp : p ≠ "") (hcomma : ',' ∉ p.toList) (h : ctx.Free p)
    {mapping : JsonObject}
    (hmapping : contains (Json.obj mapping).format p = false)
    (hv : ctx.resolveByMapping name mapping = .ok (some v)) : contains v p = false := by
  rw [OverrideContext.resolveByMapping] at hv
  split_ifs at hv
  split at hv
  · cases hv
  rename_i appended happend
  split at hv
  · cases hv
  rename_i tokens htokens
  rw [ok.injEq, ite_none_left_eq_some, some.injEq] at hv
  rw [← hv.2]
  refine contains_intercalate hp hcomma fun t ht => ?_
  rw [mem_eraseDups, mem_append] at ht
  rcases ht with ht | ht
  · refine contains_mapTokens hmapping ?_ htokens t ht
    intro raw hraw
    cases hvalue : ctx.getHeaderValue name with
    | none => simp [hvalue] at hraw
    | some =>
      rw [hvalue] at hraw
      exact contains_splitHeaderListValue (h.getHeaderValue hvalue) hraw
  · rw [parseHeaderAppendTokens] at happend
    split at happend
    · rw [ok.injEq] at happend
      simp [← happend] at ht
    · rename_i raw hl
      exact contains_replacementTokens (contains_of_lookup hmapping hl) happend t ht

variable {value : Json}

theorem Free.resolveHeaderOverrideValue (hp : p ≠ "") (hcomma : ',' ∉ p.toList) (h : ctx.Free p)
    (hvalue : contains value.format p = false)
    (hv : ctx.resolveHeaderOverrideValue name value = .ok (some v)) : contains v p = false := by
  cases value with
  | null => exact absurd hv (by simp [OverrideContext.resolveHeaderOverrideValue])
  | obj =>
    simp only [OverrideContext.resolveHeaderOverrideValue] at hv
    exact h.resolveByMapping hp hcomma hvalue hv
  | _ =>
    simp only [OverrideContext.resolveHeaderOverrideValue, ok.injEq,
      ite_none_left_eq_some, some.injEq] at hv
    rw [← hv.2]
    exact contains_trimSpace hvalue

variable {keepOrigin : Bool}

theorem Free.setHeaderOverride (hp : p ≠ "") (hcomma : ',' ∉ p.toList) (h : ctx.Free p)
    (hvalue : contains value.format p = false)
    (hset : ctx.setHeaderOverride name value keepOrigin = .ok ctx') : ctx'.Free p := by
  simp only [OverrideContext.setHeaderOverride] at hset
  split_ifs at hset
  · rw [ok.injEq] at hset
    rwa [← hset]
  · split at hset
    · cases hset
    · cases hset
      exact ⟨AggreApi.Free.erase h.1 _, h.2⟩
    · rename_i v hv
      cases hset
      exact ⟨AggreApi.Free.insert h.1 (h.resolveHeaderOverrideValue hp hcomma hvalue hv), h.2⟩

theorem Free.deleteHeaderOverride (h : ctx.Free p)
    (hdelete : ctx.deleteHeaderOverride name = .ok ctx') : ctx'.Free p := by
  simp only [OverrideContext.deleteHeaderOverride] at hdelete
  split_ifs at hdelete
  cases hdelete
  exact ⟨AggreApi.Free.erase h.1 _, h.2⟩

variable {target : String}

theorem Free.copyHeader (hp : p ≠ "") (hcomma : ',' ∉ p.toList) (h : ctx.Free p)
    (hcopy : ctx.copyHeader name target keepOrigin = .ok (some ctx')) : ctx'.Free p := by
  simp only [OverrideContext.copyHeader] at hcopy
  split_ifs at hcopy
  split at hcopy
  · cases hcopy
  · rename_i value hvalue
    split at hcopy
    · cases hcopy
    · rename_i ctx₁ hset
      rw [ok.injEq] at hcopy
      cases hcopy
      exact h.setHeaderOverride hp hcomma (h.getHeaderValue hvalue) hset

theorem Free.moveHeader (hp : p ≠ "") (hcomma : ',' ∉ p.toList) (h : ctx.Free p)
    (hmove : ctx.moveHeader name target keepOrigin = .ok (some ctx')) : ctx'.Free p := by
  rw [OverrideContext.moveHeader] at hmove
  split at hmove
  · cases hmove
  split at hmove
  · cases hmove
  · cases hmove
  · rename_i ctx₁ hcopy
    have hfree := h.copyHeader hp hcomma hcopy
    split_ifs at hmove
    · rw [ok.injEq, some.injEq] at hmove
      rwa [← hmove]
    · split at hmove
      · cases hmove
      · rename_i ctx₂ hdelete
        rw [ok.injEq] at hmove
        cases hmove
        exact hfree.deleteHeaderOverride hdelete

end OverrideContext

namespace OverrideEngine

variable {Body : Type} {eng : OverrideEngine Body} {ctx ctx' : OverrideContext}

theorem free_passHeaders (hp : p ≠ "") (hcomma : ',' ∉ p.toList) {keepOrigin : Bool}
    {names : List String} (h : ctx.Free p) (hpass : passHeaders keepOrigin names ctx = .ok ctx') :
    ctx'.Free p := by
  induction names generalizing ctx with
  | nil =>
    rw [passHeaders, ok.injEq] at hpass
    rwa [← hpass]
  | cons _ _ ih =>
    rw [passHeaders] at hpass
    split at hpass
    · cases hpass
    · exact ih h hpass
    · rename_i ctx₁ hcopy
      exact ih (h.copyHeader hp hcomma hcopy) hpass

variable {body : Body} {r : Body × OverrideContext}

theorem withBody_ok {x : Except String OverrideContext}
    (h : withBody body x = .ok r) : x = .ok r.2 := by
  cases x with
  | error e => exact absurd h (by simp [withBody])
  | ok ctx =>
    rw [withBody, ok.injEq] at h
    rw [← h]

theorem withBodyOr_ok {x : Except String (Option OverrideContext)}
    (h : withBodyOr body ctx x = .ok r) :
    x = .ok none ∧ r.2 = ctx ∨ x = .ok (some r.2) := by
  rcases x with e | _ | ctx₁
  · exact absurd h (by simp [withBodyOr])
  · rw [withBodyOr, ok.injEq] at h
    exact .inl ⟨rfl, by rw [← h]; rfl⟩
  · rw [withBodyOr, ok.injEq] at h
    exact .inr (by rw [← h]; rfl)

theorem free_applyMode (hp : p ≠ "") (hcomma : ',' ∉ p.toList) {op : ParamOperation}
    (hop : op.IsHeaderOperation) (hvalue : contains op.value.format p = false) (h : ctx.Free p)
    (hr : eng.applyMode op body ctx = .ok r) :
    r.2.Free p := by
  obtain ⟨-, hmode⟩ := hop
  simp only [mem_cons, not_mem_nil, or_false] at hmode
  rcases hmode with hmode | hmode | hmode | hmode | hmode
  · rw [applyMode_set body ctx hmode] at hr
    exact h.setHeaderOverride hp hcomma hvalue (withBody_ok hr)
  · rw [applyMode_delete body ctx hmode] at hr
    exact h.deleteHeaderOverride (withBody_ok hr)
  · rw [applyMode_copy body ctx hmode] at hr
    rcases withBodyOr_ok hr with ⟨-, hsame⟩ | hcopy
    · rwa [hsame]
    · exact h.copyHeader hp hcomma hcopy
  · rw [applyMode_move body ctx hmode] at hr
    rcases withBodyOr_ok hr with ⟨-, hsame⟩ | hmove
    · rwa [hsame]
    · exact h.moveHeader hp hcomma hmove
  · cases hparse : eng.parseHeaderPassThroughNames op.value with
    | error =>
      rw [applyMode_pass_error body ctx hmode hparse] at hr
      cases hr
    | ok =>
      rw [applyMode_pass body ctx hmode hparse] at hr
      exact free_passHeaders hp hcomma h (withBody_ok hr)

theorem free_applyOperations (hp : p ≠ "") (hcomma : ',' ∉ p.toList) :
    ∀ {ops : List ParamOperation} {body : Body} {ctx : OverrideContext},
    (∀ op ∈ ops, op.IsHeaderOperation ∧ contains op.value.format p = false) → ctx.Free p →
    eng.applyOperations ops body ctx = .ok r → r.2.Free p
  | [], _, _, _, h, hr => by
    rw [applyOperations, ok.injEq] at hr
    rwa [← hr]
  | op :: ops, body, ctx, hops, h, hr => by
    obtain ⟨hop, hvalue⟩ := hops op mem_cons_self
    rw [applyOperations, hop.1, isEmpty_nil] at hr
    simp only [if_true] at hr
    split at hr
    · cases hr
    · rename_i body₁ ctx₁ hmode
      exact free_applyOperations hp hcomma (fun o ho => hops o (mem_cons_of_mem _ ho))
        (free_applyMode hp hcomma hop hvalue h hmode) hr

theorem free_applyParamOverride (hp : p ≠ "") (hcomma : ',' ∉ p.toList)
    {paramOverride : JsonObject}
    (hops : ∀ op ∈ (tryParseOperations paramOverride).getD [],
      op.IsHeaderOperation ∧ contains op.value.format p = false) (h : ctx.Free p)
    (hr : eng.applyParamOverride body paramOverride ctx = .ok r) : r.2.Free p := by
  simp only [applyParamOverride] at hr
  split at hr
  · rename_i ops htry
    rw [htry] at hops
    split at hr
    · cases hr
    · exact free_applyOperations hp hcomma hops h hr
  · split at hr
    · cases hr
    · rw [ok.injEq] at hr
      rwa [← hr]

end OverrideEngine

theorem sanitizeEntry_cases (target : HeaderMap) (m : String × Json) :
    sanitizeEntry target m = target ∨
    sanitizeEntry target m = target.insert (normalizeHeaderContextKey m.1) "" ∨
    sanitizeEntry target m = target.insert (normalizeHeaderContextKey m.1)
      (trimSpace m.2.format) := by
  simp only [sanitizeEntry]
  split_ifs
  · exact .inl rfl
  · exact .inr (.inl rfl)
  · exact .inl rfl
  · exact .inr (.inr rfl)

theorem contains_empty (hp : p ≠ "") : contains "" p = false := by
  rw [contains_eq_false_iff]
  intro hin
  exact hp (by simpa using infix_nil.1 hin)

theorem free_empty : HeaderMap.Free p ∅ := fun _ he => absurd he not_mem_nil

theorem free_sanitize (hp : p ≠ "") {source : JsonObject}
    (h : ∀ m ∈ source, contains m.2.format p = false) :
    HeaderMap.Free p (sanitizeHeaderOverrideMap source) := by
  refine foldlRecOn source sanitizeEntry free_empty fun target htarget m hm => ?_
  rcases sanitizeEntry_cases target m with heq | heq | heq
  · rwa [heq]
  · rw [heq]
    exact Free.insert htarget (contains_empty hp)
  · rw [heq]
    exact Free.insert htarget (contains_trimSpace (h m hm))

theorem free_sanitize_toJson (hp : p ≠ "") (h : HeaderMap.Free p m) :
    HeaderMap.Free p (sanitizeHeaderOverrideMap m.toJson) := by
  refine free_sanitize hp fun e he => ?_
  obtain ⟨entry, hentry, rfl⟩ := mem_map.1 he
  exact h entry hentry

theorem normalized_sanitize (source : JsonObject) :
    (sanitizeHeaderOverrideMap source).Normalized := by
  have hinsert : ∀ {m : HeaderMap} (key value : String), m.Normalized →
      HeaderMap.Normalized (m.insert (normalizeHeaderContextKey key) value) := by
    intro m key value hm k hk
    rw [AList.keys_insert, mem_cons] at hk
    rcases hk with rfl | hk
    · exact normalizeHeaderContextKey_idem key
    · exact hm k (mem_of_mem_erase hk)
  refine foldlRecOn source sanitizeEntry (fun k hk => absurd hk not_mem_nil)
    fun target htarget m _ => ?_
  rcases sanitizeEntry_cases target m with heq | heq | heq
  · rwa [heq]
  · rw [heq]
    exact hinsert m.1 _ htarget
  · rw [heq]
    exact hinsert m.1 _ htarget

end free

end AggreApi
