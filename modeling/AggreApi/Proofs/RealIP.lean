import AggreApi.Proofs.Text
import AggreApi.RealIP

/-!
# Who names the address of the client

`RealIP` never asks whether the peer is a trusted proxy: the address it leaves is the one the
headers name, and the peer's only if they name none. Of `X-Forwarded-For` it reads the first header
line.
-/

namespace AggreApi

open List Option

variable {s host port : String} {α : Type*} {c : Char} {h : HttpHeader}

theorem trimSpace_of_no_space (h : ∀ c ∈ s.toList, isSpace c = false) : trimSpace s = s := by
  have hdrop : s.toList.dropWhile isSpace = s.toList := by
    cases hs : s.toList with
    | nil => rfl
    | cons c => exact dropWhile_cons_of_neg (by simp [h c (by simp [hs])])
  rw [← String.toList_inj, toList_trimSpace, hdrop, rdropWhile_eq_self_iff]
  intro hne
  simp [h _ (getLast_mem hne)]

theorem rtakeWhile_append_cons {p : α → Bool} {l r : List α} {a : α}
    (ha : p a = false) (hr : ∀ x ∈ r, p x = true) : (l ++ a :: r).rtakeWhile p = r := by
  have hrev : ∀ x ∈ r.reverse, p x = true := fun x hx => hr x (mem_reverse.1 hx)
  rw [rtakeWhile, reverse_append, reverse_cons, append_assoc,
    takeWhile_append_of_pos hrev, singleton_append,
    takeWhile_cons_of_neg (by simp [ha]), append_nil, reverse_reverse]

theorem takeWhile_append_cons {p : α → Bool} {l r : List α} {a : α}
    (hl : ∀ x ∈ l, p x = true) (ha : p a = false) : (l ++ a :: r).takeWhile p = l := by
  rw [takeWhile_append_of_pos hl, takeWhile_cons_of_neg (by simp [ha]), append_nil]

theorem joinHostPort_of_colon (h : ':' ∈ host.toList) :
    (joinHostPort host port).toList = '[' :: host.toList ++ [']'] ++ ':' :: port.toList := by
  simp [joinHostPort, h]

theorem joinHostPort_of_no_colon (h : ':' ∉ host.toList) :
    (joinHostPort host port).toList = host.toList ++ ':' :: port.toList := by
  simp [joinHostPort, h]

def IsHost (host : String) : Prop := '[' ∉ host.toList ∧ ']' ∉ host.toList

/-- A text that may stand for a port. -/
def IsPort (port : String) : Prop := ∀ c ∈ port.toList, c.isDigit = true

theorem isPort_zero : IsPort "0" := by simp [IsPort]

theorem IsPort.notMem (h : IsPort port) (hc : c.isDigit = false) :
    c ∉ port.toList := fun hmem => by simp [h c hmem] at hc

theorem IsPort.rtakeWhile (h : IsPort port) (front : List Char) :
    ((front ++ ':' :: port.toList).rtakeWhile fun c => decide (c ≠ ':')) = port.toList := by
  refine rtakeWhile_append_cons (by simp) fun c hc => ?_
  have hne : c ≠ ':' := fun hcolon => h.notMem (by decide) (hcolon ▸ hc)
  simp [hne]

theorem take_before_cons (l r : List α) (a : α) :
    (l ++ a :: r).take ((l ++ a :: r).length - r.length - 1) = l := by
  rw [take_append_of_le_length (by simp; omega), take_of_length_le (by simp; omega)]

theorem splitHostPort_joinHostPort (hhost : IsHost host) (hport : IsPort port) :
    splitHostPort (joinHostPort host port) = some (host, port) := by
  have hopen : '[' ∉ port.toList := hport.notMem (by decide)
  have hclose : ']' ∉ port.toList := hport.notMem (by decide)
  by_cases hcolon : ':' ∈ host.toList
  · have hinner : (((joinHostPort host port).toList.drop 1).takeWhile fun c => decide (c ≠ ']')) =
        host.toList := by
      rw [joinHostPort_of_colon hcolon, append_assoc, cons_append, drop_one,
        tail_cons, singleton_append]
      refine takeWhile_append_cons (fun c hc => ?_) (by simp)
      have hne : c ≠ ']' := fun h => hhost.2 (h ▸ hc)
      simp [hne]
    simp only [splitHostPort, hinner]
    rw [joinHostPort_of_colon hcolon, hport.rtakeWhile, take_before_cons, if_neg (by simp),
      if_pos (by simp), if_pos ⟨rfl, hhost.1, hopen, hclose⟩, String.ofList_toList,
      String.ofList_toList]
  · have hhead : (host.toList ++ ':' :: port.toList).head? ≠ some '[' := by
      intro h
      have hmem := mem_of_head? h
      simp [hhost.1, hopen] at hmem
    simp only [splitHostPort]
    rw [joinHostPort_of_no_colon hcolon, hport.rtakeWhile, take_before_cons, if_neg (by simp),
      if_neg hhead, if_neg (by simp [hcolon, hhost.1, hhost.2, hopen, hclose]),
      String.ofList_toList, String.ofList_toList]

theorem joinHostPort_ne_empty (host port : String) : joinHostPort host port ≠ "" := by
  rw [Ne, ← String.toList_inj]
  by_cases h : ':' ∈ host.toList
  · simp [joinHostPort_of_colon h]
  · simp [joinHostPort_of_no_colon h]

namespace IPLib

variable (lib : IPLib) (trusted : List lib.Net)

variable {lib}

theorem isHost_of_parse (h : (lib.parseIP host).isSome) : IsHost host :=
  ⟨fun hmem => absurd (lib.parse_chars host h _ hmem) (by decide),
    fun hmem => absurd (lib.parse_chars host h _ hmem) (by decide)⟩

theorem isAddressChar_range (h : isAddressChar c = true) : 46 ≤ c.toNat ∧ c.toNat ≤ 102 := by
  simp only [isAddressChar, Char.isDigit, Bool.or_eq_true, Bool.and_eq_true, decide_eq_true_eq,
    Char.le_def, UInt32.le_iff_toNat_le, ge_iff_le] at h
  rcases h with (((h | h) | h) | rfl) | rfl
  · exact ⟨le_trans (by decide) h.1, le_trans h.2 (by decide)⟩
  · exact ⟨le_trans (by decide) h.1, le_trans h.2 (by decide)⟩
  · exact ⟨le_trans (by decide) h.1, le_trans h.2 (by decide)⟩
  · decide
  · decide

theorem isSpace_of_range (h : 46 ≤ c.toNat ∧ c.toNat ≤ 102) : isSpace c = false := by
  simp only [isSpace, Bool.or_eq_false_iff, Bool.and_eq_false_iff, decide_eq_false_iff_not]
  omega

theorem isDigit_range (h : c.isDigit = true) : 46 ≤ c.toNat ∧ c.toNat ≤ 102 :=
  isAddressChar_range (by simp [isAddressChar, h])

theorem stripPort_joinHostPort (h : (lib.parseIP host).isSome)
    (hport : IsPort port) : stripPort (joinHostPort host port) = host := by
  have htrim : trimSpace (joinHostPort host port) = joinHostPort host port := by
    refine trimSpace_of_no_space fun c hc => ?_
    have hparts : c ∈ host.toList ∨ c ∈ port.toList ∨ c = '[' ∨ c = ']' ∨ c = ':' := by
      by_cases hcolon : ':' ∈ host.toList
      · rw [joinHostPort_of_colon hcolon] at hc
        simp only [cons_append, append_assoc, mem_cons, mem_append,
          not_mem_nil] at hc
        tauto
      · rw [joinHostPort_of_no_colon hcolon] at hc
        simp only [mem_append, mem_cons] at hc
        tauto
    rcases hparts with hc | hc | rfl | rfl | rfl
    · exact isSpace_of_range (isAddressChar_range (lib.parse_chars host h c hc))
    · exact isSpace_of_range (isDigit_range (hport c hc))
    · decide
    · decide
    · decide
  simp [stripPort, htrim, if_neg (joinHostPort_ne_empty host port),
    splitHostPort_joinHostPort (isHost_of_parse h) hport]

variable (lib)

def address? (text : String) : Option String :=
  if (lib.parseIP (stripPort text)).isSome then some (stripPort text) else none

variable {lib}

theorem ne_empty_of_parse (h : (lib.parseIP s).isSome) : s ≠ "" := by
  rintro rfl
  simp [lib.parse_empty] at h

theorem parse_of_address? {text : String} (h : lib.address? text = some s) :
    (lib.parseIP s).isSome := by
  rw [address?, ite_none_right_eq_some, some.injEq] at h
  exact h.2 ▸ h.1

theorem address?_empty : lib.address? "" = none := by
  have hstrip : stripPort "" = "" := by decide
  simp [address?, hstrip, lib.parse_empty]

theorem address?_joinHostPort (h : (lib.parseIP host).isSome)
    (hport : IsPort port) : lib.address? (joinHostPort host port) = some host := by
  rw [address?, stripPort_joinHostPort h hport, if_pos h]

variable (lib)

/-- The entry is an address in the list. -/
def isTrustedText (text : String) : Bool :=
  ((lib.parseIP (stripPort text)).map (lib.isTrustedIP trusted)).getD false

def forwarded (parts : List String) : Option String :=
  ((parts.reverse.dropWhile (lib.isTrustedText trusted)).head?.or parts.head?).bind lib.address?

theorem walkXFF_eq : ∀ l : List String, lib.walkXFF trusted l =
    (((l.dropWhile (lib.isTrustedText trusted)).head?.or l.getLast?).bind lib.address?).getD ""
  | [] => rfl
  | part :: rest => by
    simp only [walkXFF]
    cases hip : lib.parseIP (stripPort part) with
    | none =>
      rw [dropWhile_cons_of_neg (by simp [isTrustedText, hip])]
      simp [address?, hip]
    | some ip =>
      have haddress : lib.address? part = some (stripPort part) := by simp [address?, hip]
      cases htrust : lib.isTrustedIP trusted ip with
      | false =>
        rw [dropWhile_cons_of_neg (by simp [isTrustedText, hip, htrust])]
        simp [haddress, htrust]
      | true =>
        rw [dropWhile_cons_of_pos (by simp [isTrustedText, hip, htrust])]
        cases rest with
        | nil => simp [haddress]
        | cons next rest =>
          simp only [htrust, Bool.not_true, Bool.or_false, isEmpty_cons, Bool.false_eq_true,
            if_false]
          rw [walkXFF_eq (next :: rest), getLast?_cons_cons]

theorem pickFromXFF_eq (xff : String) :
    lib.pickFromXFF trusted xff = (lib.forwarded trusted (splitChar ',' xff)).getD "" := by
  rw [pickFromXFF, forwarded]
  split_ifs with h
  · subst h
    have hsplit : splitChar ',' "" = [""] := by decide
    have hplain : lib.isTrustedText trusted "" = false := by
      have hstrip : stripPort "" = "" := by decide
      simp [isTrustedText, hstrip, lib.parse_empty]
    simp [hsplit, hplain, lib.address?_empty]
  · rw [walkXFF_eq, getLast?_reverse]

theorem forwarded_append {before after : List String} {part : String}
    (h : after.reverse.find? (fun s => !lib.isTrustedText trusted s) = some part) :
    lib.forwarded trusted (before ++ after) = lib.address? part := by
  rw [forwarded, ← find?_not_eq_head?_dropWhile, reverse_append, find?_append, h]
  rfl

def named (h : HttpHeader) : Option String :=
  ((singleHeaders.map fun e => h.get e.2).findSome? lib.address?).or
    (lib.forwarded trusted (splitChar ',' (h.get "X-Forwarded-For")))

theorem pickSingle_eq (h : HttpHeader) : ∀ l : List (String × String),
    (lib.pickSingle h l).map Prod.fst = (l.map fun e => h.get e.2).findSome? lib.address?
  | [] => rfl
  | (source, name) :: rest => by
    have ih := pickSingle_eq h rest
    simp only [pickSingle, map_cons, findSome?_cons, address?]
    cases hip : lib.parseIP (stripPort (h.get name)) with
    | none => simp [ih]
    | some =>
      have hne : stripPort (h.get name) ≠ "" := lib.ne_empty_of_parse (by simp [hip])
      simp [hne]

theorem parse_of_forwarded {parts : List String}
    (h : lib.forwarded trusted parts = some s) : (lib.parseIP s).isSome := by
  obtain ⟨part, -, hpart⟩ := bind_eq_some_iff.1 h
  exact parse_of_address? hpart

theorem parse_of_named (hs : lib.named trusted h = some s) : (lib.parseIP s).isSome := by
  rw [named, or_eq_some_iff] at hs
  rcases hs with hs | ⟨-, hs⟩
  · obtain ⟨text, -, htext⟩ := exists_of_findSome?_eq_some hs
    exact parse_of_address? htext
  · exact lib.parse_of_forwarded trusted hs

theorem pickRealIP_eq (r : Request) : (lib.pickRealIP trusted r).1 =
    ((lib.named trusted r.header).or (lib.address? r.remoteAddr)).getD "" := by
  have hsingle := lib.pickSingle_eq r.header singleHeaders
  rw [pickRealIP, named, ← hsingle]
  cases lib.pickSingle r.header singleHeaders with
  | some => rfl
  | none =>
    simp only [pickFromXFF_eq]
    cases hxff : lib.forwarded trusted (splitChar ',' (r.header.get "X-Forwarded-For")) with
    | some =>
      have hne := ne_empty_of_parse (lib.parse_of_forwarded trusted hxff)
      simp [hne]
    | none =>
      cases hip : lib.parseIP (stripPort r.remoteAddr) with
      | none => simp [address?, hip]
      | some =>
        have hsome : (lib.parseIP (stripPort r.remoteAddr)).isSome := by simp [hip]
        have hne : stripPort r.remoteAddr ≠ "" := ne_empty_of_parse hsome
        simp [address?, hip, hne]

variable {lib}

theorem clientIP_realIP {peer : String} (hpeer : (lib.parseIP peer).isSome)
    (hport : IsPort port) (env : String) (h : HttpHeader) :
    lib.clientIP (lib.realIP env ⟨joinHostPort peer port, h⟩) =
      lib.parseIP ((lib.named (lib.loadTrustedCIDRs env) h).getD peer) := by
  have hpick := lib.pickRealIP_eq (lib.loadTrustedCIDRs env) ⟨joinHostPort peer port, h⟩
  simp only [address?_joinHostPort hpeer hport, or_some] at hpick
  have hparse : (lib.parseIP ((lib.named (lib.loadTrustedCIDRs env) h).getD peer)).isSome := by
    cases hnamed : lib.named (lib.loadTrustedCIDRs env) h with
    | none => exact hpeer
    | some => exact lib.parse_of_named _ hnamed
  have hne : (lib.named (lib.loadTrustedCIDRs env) h).getD peer ≠ "" := ne_empty_of_parse hparse
  simp only [realIP, hpick, getD_some]
  rw [if_pos hne, clientIP, stripPort_joinHostPort hparse isPort_zero]

theorem get_eq_empty {name : String}
    (hname : h.lines.lookup (canonicalHeaderKey name) = none) : h.get name = "" := by
  simp [HttpHeader.get, hname]

theorem named_of_absent {line : String} {lines : List String}
    (habsent : ∀ e ∈ singleHeaders, h.lines.lookup (canonicalHeaderKey e.2) = none)
    (hlines : h.lines.lookup (canonicalHeaderKey "X-Forwarded-For") = some (line :: lines)) :
    lib.named trusted h = lib.forwarded trusted (splitChar ',' line) := by
  have hsingle : (singleHeaders.map fun e => h.get e.2).findSome? lib.address? = none := by
    rw [findSome?_eq_none_iff]
    intro text htext
    obtain ⟨e, he, rfl⟩ := mem_map.1 htext
    rw [get_eq_empty (habsent e he), address?_empty]
  have hget : h.get "X-Forwarded-For" = line := by simp [HttpHeader.get, hlines]
  rw [named, hsingle, none_or, hget]

theorem isTrustedText_eq_false {text : String} {ip : lib.Addr}
    (hip : lib.parseIP (stripPort text) = some ip) (h : lib.isTrustedText trusted text = false) :
    lib.isTrustedIP trusted ip = false := by
  simpa [isTrustedText, hip] using h

variable (lib)

/-- For a peer outside the list the address left is the peer's exactly if the headers name no other;
for one in it that sends only `X-Forwarded-For`, it is the last address outside the list exactly if
there is one header line or the first names the same address. -/
theorem client_ip_iff (env peer port : String) (ip : lib.Addr) (h : HttpHeader)
    (hpeer : lib.parseIP peer = some ip) (hport : IsPort port) :
    (lib.isTrustedIP (lib.loadTrustedCIDRs env) ip = false →
      (lib.clientIP (lib.realIP env ⟨joinHostPort peer port, h⟩) = some ip ↔
        ∀ s, lib.named (lib.loadTrustedCIDRs env) h = some s → lib.parseIP s = some ip)) ∧
    (lib.isTrustedIP (lib.loadTrustedCIDRs env) ip = true →
      (∀ e ∈ singleHeaders, h.lines.lookup (canonicalHeaderKey e.2) = none) →
      ∀ (line : String) (lines before after : List String) (part : String),
        h.lines.lookup (canonicalHeaderKey "X-Forwarded-For") = some (line :: lines) →
        splitChar ',' (",".intercalate (line :: lines)) = before ++ after →
        (∀ s ∈ after, (lib.address? s).isSome) →
        after.reverse.find? (fun s => !lib.isTrustedText (lib.loadTrustedCIDRs env) s) = some part →
        (lib.clientIP (lib.realIP env ⟨joinHostPort peer port, h⟩) =
            lib.parseIP (stripPort part) ↔
          lines = [] ∨ ∃ s, lib.forwarded (lib.loadTrustedCIDRs env) (splitChar ',' line) = some s ∧
            lib.parseIP s = lib.parseIP (stripPort part))) := by
  have hsome : (lib.parseIP peer).isSome := by simp [hpeer]
  rw [clientIP_realIP hsome hport]
  constructor
  · intro _
    cases hnamed : lib.named (lib.loadTrustedCIDRs env) h with
    | none => simp [hpeer]
    | some => simp
  · intro htrusted habsent line lines before after part hlines hparts hafter hpart
    rw [named_of_absent _ habsent hlines]
    have hmem : part ∈ after := mem_reverse.1 (mem_of_find?_eq_some hpart)
    have haddress : lib.address? part = some (stripPort part) := by
      have hsome := hafter part hmem
      rw [address?] at hsome ⊢
      split_ifs at hsome ⊢
      · rfl
      · simp at hsome
    constructor
    · intro heq
      cases hforwarded : lib.forwarded (lib.loadTrustedCIDRs env) (splitChar ',' line) with
      | some s => exact .inr ⟨s, rfl, by rwa [hforwarded] at heq⟩
      | none =>
        rw [hforwarded, Option.getD_none, hpeer] at heq
        have hout := find?_some hpart
        rw [Bool.not_eq_true'] at hout
        rw [isTrustedText_eq_false _ heq.symm hout] at htrusted
        cases htrusted
    · rintro (rfl | ⟨s, hs, hparse⟩)
      · rw [String.intercalate_singleton] at hparts
        rw [hparts, forwarded_append _ _ hpart, haddress, Option.getD_some]
      · rw [hs, Option.getD_some, hparse]

def sampleAddresses : List String := ["203.0.113.7", "198.51.100.9", "10.0.0.1"]

theorem sampleAddresses_form : ∀ s ∈ sampleAddresses,
    (∀ c ∈ s.toList, isAddressChar c) ∧ s ≠ "" := by
  simp [sampleAddresses, isAddressChar]

theorem mem_sampleAddresses
    (h : (if s ∈ sampleAddresses then some s else none).isSome) : s ∈ sampleAddresses := by
  split_ifs at h with hmem
  · exact hmem
  · simp at h

def sampleIPLib : IPLib where
  Addr := String
  Net := String
  parseIP s := if s ∈ sampleAddresses then some s else none
  parseCIDR s := if s = "10.0.0.0/8" then some s else none
  contains _ ip := ip == "10.0.0.1"
  parse_chars s h := (sampleAddresses_form s (mem_sampleAddresses h)).1
  parse_empty := if_neg fun h => (sampleAddresses_form "" h).2 rfl

instance : DecidableEq sampleIPLib.Addr := inferInstanceAs (DecidableEq String)

def sampleRequest (peer name : String) (hname : canonicalHeaderKey name = name)
    (lines : List String) : Request where
  remoteAddr := joinHostPort peer "443"
  header :=
    { lines := AList.singleton name lines
      canonical := fun key hkey => by rw [mem_singleton.1 hkey, hname] }

theorem canonicalHeaderKey_cf : canonicalHeaderKey "Cf-Connecting-Ip" = "Cf-Connecting-Ip" := by
  decide

theorem canonicalHeaderKey_xff : canonicalHeaderKey "X-Forwarded-For" = "X-Forwarded-For" := by
  decide

theorem client_ip_iff_sample : sampleIPLib.clientIP (sampleIPLib.realIP "10.0.0.0/8"
      (sampleRequest "203.0.113.7" "Cf-Connecting-Ip" canonicalHeaderKey_cf ["unknown"])) =
        sampleIPLib.parseIP "203.0.113.7" ∧
    sampleIPLib.clientIP (sampleIPLib.realIP "10.0.0.0/8"
      (sampleRequest "10.0.0.1" "X-Forwarded-For" canonicalHeaderKey_xff
        ["x, 203.0.113.7, 198.51.100.9:80, 10.0.0.1"])) = sampleIPLib.parseIP "198.51.100.9" := by
  have hport : IsPort "443" := by simp [IsPort]
  constructor
  · have hnone : sampleIPLib.named (sampleIPLib.loadTrustedCIDRs "10.0.0.0/8")
        (sampleRequest "203.0.113.7" "Cf-Connecting-Ip" canonicalHeaderKey_cf ["unknown"]).header =
      none := by decide
    refine ((sampleIPLib.client_ip_iff "10.0.0.0/8" "203.0.113.7" "443" "203.0.113.7"
      (sampleRequest "203.0.113.7" "Cf-Connecting-Ip" canonicalHeaderKey_cf ["unknown"]).header
      (by decide) hport).1 (by decide)).2 fun s hs => ?_
    rw [hnone] at hs
    cases hs
  · exact ((sampleIPLib.client_ip_iff "10.0.0.0/8" "10.0.0.1" "443" "10.0.0.1" _
      (by decide) hport).2 (by decide) (by decide)
      "x, 203.0.113.7, 198.51.100.9:80, 10.0.0.1" [] ["x"]
      [" 203.0.113.7", " 198.51.100.9:80", " 10.0.0.1"] " 198.51.100.9:80" (by decide)
      (by decide) (by decide) (by decide)).2 (.inl rfl)

/-- A peer outside the list is taken for the address it writes into a header. -/
theorem client_ip_chosen :
    sampleIPLib.isTrustedIP (sampleIPLib.loadTrustedCIDRs "10.0.0.0/8") "203.0.113.7" = false ∧
    sampleIPLib.clientIP (sampleIPLib.realIP "10.0.0.0/8"
      (sampleRequest "203.0.113.7" "Cf-Connecting-Ip" canonicalHeaderKey_cf ["198.51.100.9"])) =
        sampleIPLib.parseIP "198.51.100.9" ∧
    sampleIPLib.isTrustedIP (sampleIPLib.loadTrustedCIDRs "10.0.0.0/8") "10.0.0.1" = true ∧
    sampleIPLib.isTrustedIP (sampleIPLib.loadTrustedCIDRs "10.0.0.0/8") "198.51.100.9" = false ∧
    sampleIPLib.clientIP (sampleIPLib.realIP "10.0.0.0/8"
      (sampleRequest "10.0.0.1" "X-Forwarded-For" canonicalHeaderKey_xff
        ["203.0.113.7", "198.51.100.9"])) = sampleIPLib.parseIP "203.0.113.7" := by
  decide

end IPLib

end AggreApi
