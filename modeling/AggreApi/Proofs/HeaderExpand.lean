import AggreApi.HeaderOverride
import AggreApi.Proofs.Text

/-!
# What the expanded headers depend on

Only a filled template reads the API key, and only a client header template and the passthrough
rules read the client's headers; which entries are refused depends on neither.
-/

namespace AggreApi

open List AList Option

theorem isSpace_toLower (c : Char) : isSpace c.toLower = isSpace c := by
  rw [Char.toLower]
  split_ifs with h
  · have hlow : 65 ≤ c.val.toNat := h.1
    have hhigh : c.val.toNat ≤ 90 := h.2
    have hval : (c.val + ('a'.val - 'A'.val)).toNat = c.val.toNat + 32 := by
      have hoffset : ('a'.val - 'A'.val).toNat = 32 := rfl
      rw [UInt32.toNat_add, hoffset]
      exact Nat.mod_eq_of_lt (by omega)
    simp only [isSpace, Char.toNat, hval]
    rw [Bool.eq_iff_iff]
    simp only [Bool.or_eq_true, Bool.and_eq_true, decide_eq_true_eq]
    omega
  · rfl

theorem toLower_toLower (s : String) : toLower (toLower s) = toLower s := by
  simp [toLower, Function.comp_def]

theorem trimSpace_toLower (s : String) : trimSpace (toLower s) = toLower (trimSpace s) := by
  have hspace : isSpace ∘ Char.toLower = isSpace := funext isSpace_toLower
  rw [← String.toList_inj, toList_trimSpace, toLower, toLower, String.toList_ofList,
    String.toList_ofList, toList_trimSpace, rdropWhile, rdropWhile, dropWhile_map,
    hspace, ← map_reverse, dropWhile_map, hspace, map_reverse]

theorem normalizeHeaderContextKey_idem (key : String) :
    normalizeHeaderContextKey (normalizeHeaderContextKey key) = normalizeHeaderContextKey key := by
  simp [normalizeHeaderContextKey, trimSpace_toLower, trimSpace_trimSpace, toLower_toLower]

/-- The keys of a map are as normalization leaves them. -/
def HeaderMap.Normalized (m : HeaderMap) : Prop :=
  ∀ key ∈ m.keys, normalizeHeaderContextKey key = key

namespace HeaderEnv

section entries
variable (env : HeaderEnv) (e : Σ _ : String, String)

def Expands : Prop :=
  isHeaderPassthroughRuleKey e.1 = false ∧ normalizeHeaderContextKey e.1 ≠ "" ∧
    ¬ (env.isChannelTest ∧ isClientHeader e.2)

instance : Decidable (env.Expands e) := inferInstanceAs (Decidable (_ ∧ _))

def Keeps : Prop := env.customUserHeader ≠ some (normalizeHeaderContextKey e.1)

def refusal : Option String :=
  if env.Expands e ∧ isClientHeader e.2 then
    match clientHeaderName e.2 with
    | .error err => some err
    | .ok _ => none
  else none

def valueOf : String :=
  if isClientHeader e.2 then env.header.get ((clientHeaderName e.2).toOption.getD "")
  else env.fill e.2

def headerOf : Option (String × String) :=
  if env.Expands e ∧ trimSpace (env.valueOf e) ≠ "" then
    some (normalizeHeaderContextKey e.1, env.valueOf e)
  else none

theorem expandEntry_eq : env.expandEntry e.1 e.2 = match env.refusal e with
    | some err => .error err
    | none => .ok (env.headerOf e) := by
  by_cases hexp : env.Expands e
  · have hkey : ¬ (isHeaderPassthroughRuleKey e.1 = true ∨ normalizeHeaderContextKey e.1 = "") := by
      rintro (hrule | hblank)
      · exact absurd hrule (by simp [hexp.1])
      · exact hexp.2.1 hblank
    rw [expandEntry, if_neg hkey, if_neg hexp.2.2, TemplateEnv.applyHeaderOverridePlaceholders]
    simp only [refusal, headerOf, valueOf, hexp, true_and]
    cases hc : isClientHeader e.2 with
    | true =>
      cases hn : clientHeaderName e.2 with
      | error => rfl
      | ok =>
        simp only [if_true, Except.toOption, getD_some, ne_eq, ite_not]
        split_ifs <;> rfl
    | false =>
      simp only [Bool.false_eq_true, if_false, ne_eq, ite_not]
      split_ifs <;> rfl
  · rw [refusal, headerOf, if_neg fun h => hexp h.1, if_neg fun h => hexp h.1, expandEntry]
    split_ifs with hkey htest
    · rfl
    · rfl
    · rw [not_or, Bool.not_eq_true] at hkey
      exact absurd ⟨hkey.1, hkey.2, htest⟩ hexp

theorem expandEntries_eq : ∀ es : List (Σ _ : String, String), env.expandEntries es =
    match es.findSome? env.refusal with
    | some err => .error err
    | none => .ok (es.filterMap env.headerOf)
  | [] => rfl
  | e :: es => by
    rw [expandEntries, expandEntry_eq, expandEntries_eq es, findSome?_cons]
    cases env.refusal e with
    | some => rfl
    | none =>
      cases es.findSome? env.refusal with
      | some => rfl
      | none => cases hh : env.headerOf e <;> simp [hh, headerThen]

end entries

section maps
variable (env : HeaderEnv) (source : HeaderMap)

def Accepts : Prop :=
  (∃ rules, env.rulesOf source = .ok rules) ∧ ∀ e ∈ source.entries, env.refusal e = none

theorem processHeaderOverride_eq : env.processHeaderOverride source =
    match env.rulesOf source, source.entries.findSome? env.refusal with
    | .error err, _ => .error err
    | .ok _, some err => .error err
    | .ok rules, none => .ok (env.withCustomHeader (insertAll (passThrough env.header rules)
        (source.entries.filterMap env.headerOf))) := by
  rw [processHeaderOverride, expandEntries_eq]
  cases env.rulesOf source with
  | error => rfl
  | ok => cases source.entries.findSome? env.refusal <;> rfl

theorem exists_of_accepts {source : HeaderMap} (h : env.Accepts source) :
    ∃ m, env.processHeaderOverride source = .ok m := by
  obtain ⟨rules, hrules⟩ := h.1
  rw [processHeaderOverride_eq, hrules, findSome?_eq_none_iff.2 h.2]
  exact ⟨_, rfl⟩

def keptHeaderOf (e : Σ _ : String, String) : Option (String × String) :=
  if env.customUserHeader ≠ some (normalizeHeaderContextKey e.1) then env.headerOf e else none

variable {e : Σ _ : String, String}

theorem headerOf_fst {header : String × String}
    (h : env.headerOf e = some header) : header.1 = normalizeHeaderContextKey e.1 := by
  rw [headerOf, ite_none_right_eq_some, some.injEq] at h
  rw [← h.2]

theorem withCustomHeader_insertAll (m : HeaderMap) (es : List (Σ _ : String, String)) :
    env.withCustomHeader (insertAll m (es.filterMap env.headerOf)) =
      env.withCustomHeader (insertAll m (es.filterMap env.keptHeaderOf)) := by
  cases hcustom : env.customUserHeader with
  | none =>
    have hkept : env.keptHeaderOf = env.headerOf := by
      funext e
      rw [keptHeaderOf, hcustom, if_pos (by simp)]
    rw [hkept]
  | some key =>
    simp only [withCustomHeader, hcustom]
    refine insert_eq_of_erase_eq ?_
    rw [erase_insertAll, erase_insertAll, filter_filterMap, filter_filterMap]
    refine congrArg (fun f => insertAll (m.erase key) (es.filterMap f)) (funext fun e => ?_)
    rw [keptHeaderOf, hcustom]
    split_ifs with hkey
    · rfl
    · cases hh : env.headerOf e with
      | none => rfl
      | some =>
        rw [filter_some, if_neg]
        · rfl
        · rw [env.headerOf_fst hh]
          rw [ne_eq, not_not, some.injEq] at hkey
          simp [hkey]

variable {m : HeaderMap}

theorem lookup_withCustomHeader {key : String}
    (h : env.customUserHeader ≠ some key) : (env.withCustomHeader m).lookup key = m.lookup key := by
  rw [withCustomHeader]
  cases hcustom : env.customUserHeader with
  | none => rfl
  | some =>
    rw [hcustom] at h
    exact lookup_insert_ne fun heq => h (congrArg some heq.symm)

theorem nodup_headerOf (h : source.Normalized) :
    ((source.entries.filterMap env.headerOf).map Prod.fst).Nodup := by
  rw [List.Nodup, pairwise_map, pairwise_filterMap]
  refine (nodupKeys_iff_pairwise.1 source.nodupKeys).imp_of_mem ?_
  intro e e' he he' hne header hh header' hh' heq
  rw [env.headerOf_fst hh, env.headerOf_fst hh', h _ (mem_keys_of_mem he),
    h _ (mem_keys_of_mem he')] at heq
  exact hne heq

theorem lookup_processHeaderOverride
    (hnorm : source.Normalized) (hm : env.processHeaderOverride source = .ok m)
    (he : e ∈ source.entries) (hkeep : env.Keeps e)
    (hvalue : env.Expands e ∧ trimSpace (env.valueOf e) ≠ "") :
    m.lookup (normalizeHeaderContextKey e.1) = some (env.valueOf e) := by
  have hh : env.headerOf e = some (normalizeHeaderContextKey e.1, env.valueOf e) := if_pos hvalue
  rw [processHeaderOverride_eq] at hm
  split at hm
  · cases hm
  · cases hm
  · cases hm
    rw [lookup_withCustomHeader env hkeep]
    exact lookup_insertAll_of_mem (env.nodup_headerOf source hnorm)
      (mem_filterMap.2 ⟨e, he, hh⟩)

end maps

section congr
variable {env env' : HeaderEnv} {source : HeaderMap}

theorem processHeaderOverride_congr (hrules : env.rulesOf source = env'.rulesOf source)
    (hrefusal : env.refusal = env'.refusal) (hcustom : env.withCustomHeader = env'.withCustomHeader)
    (hpass : passThrough env.header = passThrough env'.header)
    (hkept : env.Accepts source → ∀ e ∈ source.entries, env.keptHeaderOf e = env'.keptHeaderOf e) :
    env.processHeaderOverride source = env'.processHeaderOverride source := by
  rw [processHeaderOverride_eq, processHeaderOverride_eq, ← hrules, ← hrefusal, ← hpass]
  cases hr : env.rulesOf source with
  | error => rfl
  | ok rules =>
    cases hf : source.entries.findSome? env.refusal with
    | some => rfl
    | none =>
      have haccepts : env.Accepts source := ⟨⟨rules, hr⟩, findSome?_eq_none_iff.1 hf⟩
      simp only [withCustomHeader_insertAll]
      rw [hcustom, filterMap_congr (hkept haccepts)]

theorem keptHeaderOf_congr {e : Σ _ : String, String} (hexp : env.Expands e ↔ env'.Expands e)
    (hcustom : env.customUserHeader = env'.customUserHeader)
    (hvalue : env.Expands e → env.Keeps e → env.valueOf e = env'.valueOf e) :
    env.keptHeaderOf e = env'.keptHeaderOf e := by
  rw [keptHeaderOf, keptHeaderOf, ← hcustom]
  split_ifs with hkeep
  · by_cases h : env.Expands e
    · simp [headerOf, h, hexp.1 h, hvalue h hkeep]
    · rw [headerOf, headerOf, if_neg fun hand => h hand.1, if_neg fun hand => h (hexp.2 hand.1)]
  · rfl

end congr

section apiKey
variable (env : HeaderEnv) {source : HeaderMap}

def withKey (key : String) : HeaderEnv := { env with apiKey := key }

theorem replaceAll_of_not_contains {s old : String} (new : String) (h : contains s old = false) :
    replaceAll s old new = s := by
  rw [replaceAll, replaceList_of_not_infix (contains_eq_false_iff.1 h), String.ofList_toList]

variable {template : String}

theorem fill_withKey (h : contains template apiKeyPlaceholder = false)
    (key : String) : (env.withKey key).fill template = env.fill template := by
  rw [TemplateEnv.fill, TemplateEnv.fill, replaceAll_of_not_contains _ h,
    replaceAll_of_not_contains _ h]
  rfl

theorem count_fill (template : String) (n : ℕ) :
    ((env.withKey (String.ofList (List.replicate n 'a'))).fill template).toList.count 'a' +
        occurrences apiKeyPlaceholder.toList 0 template.toList =
      template.toList.count 'a' + occurrences apiKeyPlaceholder.toList 0 template.toList * n := by
  have hkey := @count_replaceList _ _ apiKeyPlaceholder.toList
    (List.replicate n 'a') (by decide) 'a'
    0 template.toList
  have huser := @count_replaceList _ _ userIdPlaceholder.toList (toString env.userId).toList
    (by decide) 'a' 0
    (replaceList apiKeyPlaceholder.toList (List.replicate n 'a') 0 template.toList)
  have hdigits : (toString env.userId).toList.count 'a' = 0 :=
    count_eq_zero_of_not_mem (notMem_toString_int (by decide) (by decide) _)
  have hone : apiKeyPlaceholder.toList.count 'a' = 1 := by decide
  have hnone : userIdPlaceholder.toList.count 'a' = 0 := by decide
  simp only [hone, hnone, hdigits, count_replicate_self, drop_zero, Nat.mul_zero,
    Nat.mul_one, Nat.add_zero] at hkey huser
  simp only [TemplateEnv.fill, replaceAll, withKey, String.toList_ofList]
  rw [huser, hkey]

theorem fill_nonblank (h : contains template apiKeyPlaceholder = true) {n : ℕ}
    (hn : 0 < n) :
    trimSpace ((env.withKey (String.ofList (List.replicate n 'a'))).fill template) ≠ "" := by
  have hcount := env.count_fill template n
  have hocc := occurrences_pos (by decide) (contains_iff.1 h)
  have ha : 'a' ∈ template.toList := (contains_iff.1 h).subset (by decide)
  have hle : occurrences apiKeyPlaceholder.toList 0 template.toList ≤
      occurrences apiKeyPlaceholder.toList 0 template.toList * n := Nat.le_mul_of_pos_right _ hn
  have hmem := count_pos_iff.2 ha
  have hpos : 0 < ((env.withKey (String.ofList (List.replicate n 'a'))).fill template).toList.count
      'a' := by omega
  exact trimSpace_ne_empty (count_pos_iff.1 hpos) (by decide)

theorem fill_ne (h : contains template apiKeyPlaceholder = true) :
    (env.withKey (String.ofList (List.replicate 1 'a'))).fill template ≠
      (env.withKey (String.ofList (List.replicate 2 'a'))).fill template := by
  intro heq
  have hone := env.count_fill template 1
  have htwo := env.count_fill template 2
  have hocc := occurrences_pos (by decide) (contains_iff.1 h)
  rw [heq] at hone
  omega

theorem valueOf_of_filled {e : Σ _ : String, String} (h : isClientHeader e.2 = false) :
    env.valueOf e = env.fill e.2 := by
  rw [valueOf, h]
  rfl

theorem withKey_iff (hnorm : source.Normalized) :
    (∀ key key', (env.withKey key).processHeaderOverride source =
      (env.withKey key').processHeaderOverride source) ↔
    (env.Accepts source → ∀ e ∈ source.entries, env.Expands e → env.Keeps e →
      isClientHeader e.2 = false → contains e.2 apiKeyPlaceholder = false) := by
  constructor
  · intro hsame haccepts e he hexp hkeep hclient
    by_contra hcontains
    rw [Bool.not_eq_false] at hcontains
    obtain ⟨m, hm⟩ := (env.withKey (String.ofList
      (List.replicate 1 'a'))).exists_of_accepts haccepts
    have hvalue : ∀ n, 0 < n →
        (env.withKey (String.ofList (List.replicate n 'a'))).processHeaderOverride source = .ok m →
        m.lookup (normalizeHeaderContextKey e.1) =
          some ((env.withKey (String.ofList (List.replicate n 'a'))).fill e.2) := by
      intro n hn hm
      have hfilled := valueOf_of_filled (env.withKey (String.ofList (List.replicate n 'a'))) hclient
      rw [← hfilled]
      refine lookup_processHeaderOverride _ source hnorm hm he hkeep ⟨hexp, ?_⟩
      rw [hfilled]
      exact env.fill_nonblank hcontains hn
    have hone := hvalue 1 (by decide) hm
    rw [hvalue 2 (by decide) ((hsame _ _).trans hm), some.injEq] at hone
    exact env.fill_ne hcontains hone.symm
  · intro hclean key key'
    refine processHeaderOverride_congr rfl rfl rfl rfl fun haccepts e he => ?_
    refine keptHeaderOf_congr Iff.rfl rfl fun hexp hkeep => ?_
    cases hclient : isClientHeader e.2 with
    | true => simp only [valueOf, hclient, if_true]; rfl
    | false =>
      have h := hclean haccepts e he hexp hkeep hclient
      rw [valueOf_of_filled _ hclient, valueOf_of_filled _ hclient, fill_withKey env h,
        fill_withKey env h]

end apiKey

end HeaderEnv

namespace HttpHeader

variable {h h' : HttpHeader}

def SameButAuthorization (h h' : HttpHeader) : Prop :=
  h.lines.erase "Authorization" = h'.lines.erase "Authorization"

def withAuthorization (h : HttpHeader) (value : String) : HttpHeader where
  lines := h.lines.insert "Authorization" [value]
  canonical := by
    intro name hname
    rw [keys_insert, mem_cons] at hname
    rcases hname with rfl | hname
    · decide
    · exact h.canonical name (mem_of_mem_erase hname)

theorem withAuthorization_same (h : HttpHeader) (value : String) :
    (h.withAuthorization value).SameButAuthorization h :=
  erase_insert_self

variable {name : String}

theorem get_withAuthorization (h : HttpHeader) {value : String}
    (hname : canonicalHeaderKey name = "Authorization") :
    (h.withAuthorization value).get name = value := by
  rw [get, withAuthorization, hname, lookup_insert]
  rfl

section
variable (hsame : h.SameButAuthorization h')
include hsame

theorem get_of_ne (hne : canonicalHeaderKey name ≠ "Authorization") : h.get name = h'.get name := by
  rw [get, get, ← lookup_erase_ne hne, hsame, lookup_erase_ne hne]

theorem filterMap_keys {β : Type} {f f' : String → Option β} (hf : f "Authorization" = none)
    (hf' : f' "Authorization" = none)
    (heq : ∀ name, canonicalHeaderKey name = name → name ≠ "Authorization" → f name = f' name) :
    h.lines.keys.filterMap f = h'.lines.keys.filterMap f' := by
  have hkeys : h.lines.keys.erase "Authorization" = h'.lines.keys.erase "Authorization" := by
    rw [← keys_erase, ← keys_erase, hsame]
  rw [← filterMap_erase hf, ← filterMap_erase hf', ← hkeys]
  refine filterMap_congr fun name hname => ?_
  have hmem := (h.lines.keys_nodup.mem_erase_iff).1 hname
  exact heq name (h.canonical name hmem.2) hmem.1

theorem passThrough_congr : passThrough h = passThrough h' := by
  funext rules
  have hskip : shouldSkipPassthroughHeader "Authorization" = true := by decide
  rw [passThrough, passThrough]
  split_ifs
  · rw [filterMap_keys hsame]
    · simp [hskip]
    · simp [hskip]
    · intro name hcanonical hne
      rw [← hcanonical] at hne
      simp [get_of_ne hsame hne]
  · rfl

end

end HttpHeader

namespace HeaderEnv

variable (env : HeaderEnv) {source : HeaderMap}

def withHeader (h : HttpHeader) : HeaderEnv := { env with header := h }

/-- The template stands for the client's `Authorization` header. -/
def NamesAuthorization (template : String) : Prop :=
  ∃ name, clientHeaderName template = .ok name ∧ canonicalHeaderKey name = "Authorization"

variable {e : Σ _ : String, String}

theorem valueOf_withHeader {h h' : HttpHeader} (hsame : h.SameButAuthorization h')
    (hrefusal : env.refusal e = none) (hexp : env.Expands e)
    (hnames : isClientHeader e.2 → ¬ NamesAuthorization e.2) :
    (env.withHeader h).valueOf e = (env.withHeader h').valueOf e := by
  cases hclient : isClientHeader e.2 with
  | true =>
    cases hname : clientHeaderName e.2 with
    | error =>
      rw [refusal, if_pos ⟨hexp, hclient⟩, hname] at hrefusal
      cases hrefusal
    | ok name =>
      have hne : canonicalHeaderKey name ≠ "Authorization" := fun heq =>
        hnames hclient ⟨name, hname, heq⟩
      simp only [valueOf, hclient, hname, if_true, Except.toOption, getD_some]
      exact HttpHeader.get_of_ne hsame hne
  | false =>
    rw [valueOf_of_filled _ hclient, valueOf_of_filled _ hclient]
    rfl

theorem valueOf_authorization (hclient : isClientHeader e.2 = true)
    (hnames : NamesAuthorization e.2) (h : HttpHeader) (value : String) :
    (env.withHeader (h.withAuthorization value)).valueOf e = value := by
  obtain ⟨name, hname, hkey⟩ := hnames
  simp only [valueOf, hclient, hname, if_true, Except.toOption, getD_some]
  exact HttpHeader.get_withAuthorization h hkey

theorem withHeader_iff (hnorm : source.Normalized) : (∀ h, h.SameButAuthorization env.header →
      (env.withHeader h).processHeaderOverride source = env.processHeaderOverride source) ↔
    (env.Accepts source → ∀ e ∈ source.entries, env.Expands e → env.Keeps e →
      isClientHeader e.2 = true → ¬ NamesAuthorization e.2) := by
  constructor
  · intro hsame haccepts e he hexp hkeep hclient hnames
    obtain ⟨m, hm⟩ := env.exists_of_accepts haccepts
    have hvalue : ∀ value, trimSpace value ≠ "" →
        m.lookup (normalizeHeaderContextKey e.1) = some value := by
      intro value hblank
      have hget := env.valueOf_authorization hclient hnames env.header value
      rw [← hget]
      refine lookup_processHeaderOverride _ source hnorm
        ((hsame _ (env.header.withAuthorization_same value)).trans hm) he hkeep ⟨hexp, ?_⟩
      rwa [hget]
    have hone := hvalue "a" (by decide)
    rw [hvalue "b" (by decide), some.injEq] at hone
    exact absurd hone (by decide)
  · intro hclean h hsame
    refine processHeaderOverride_congr rfl rfl rfl (HttpHeader.passThrough_congr hsame) ?_
    intro haccepts e he
    refine keptHeaderOf_congr Iff.rfl rfl fun hexp hkeep => ?_
    exact env.valueOf_withHeader hsame (haccepts.2 e he) hexp (hclean haccepts e he hexp hkeep)

end HeaderEnv

end AggreApi
