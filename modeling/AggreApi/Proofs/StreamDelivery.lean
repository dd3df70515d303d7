import AggreApi.Proofs.StreamScanner

/-!
# Payloads are delivered once and in order

Where no timer fires, no ping fails, the client stays and the handler never stops, no token comes
before the scanner has closed `dataChan`. The payloads handled, waiting and ahead of the scanner are
always those of the whole body (`Delivery`).
-/

namespace AggreApi

open List Option

def payload? (line : String) : Option String :=
  let data := trimSpace (String.ofList (line.toList.drop 5))
  if 6 ≤ line.utf8ByteSize ∧ startsWith "data:" line = true ∧ data ≠ "" then some data else none

def payloads (lines : List String) : List String :=
  (lines.filterMap payload?).takeWhile fun data => startsWith "[DONE]" data = false

def bodyEnd (lines : List String) (readError : Bool) : StreamEndReason :=
  if (lines.filterMap payload?).any (startsWith "[DONE]") then .done
  else if readError then .scannerErr
  else .eof

section lines
variable {line : String} {lines : List String} {readError : Bool}

theorem payloads_none (h : payload? line = none) : payloads (line :: lines) = payloads lines := by
  rw [payloads, filterMap_cons_none h, payloads]

theorem bodyEnd_none (h : payload? line = none) :
    bodyEnd (line :: lines) readError = bodyEnd lines readError := by
  rw [bodyEnd, filterMap_cons_none h, bodyEnd]

variable {data : String}

section
variable (h : payload? line = some data)
include h

theorem payloads_some (hdone : startsWith "[DONE]" data = false) :
    payloads (line :: lines) = data :: payloads lines := by
  rw [payloads, filterMap_cons_some h, takeWhile_cons_of_pos (by simpa using hdone),
    payloads]

theorem bodyEnd_some (hdone : startsWith "[DONE]" data = false) :
    bodyEnd (line :: lines) readError = bodyEnd lines readError := by
  rw [bodyEnd, filterMap_cons_some h, any_cons, hdone, Bool.false_or, bodyEnd]

theorem payloads_done (hdone : startsWith "[DONE]" data = true) :
    payloads (line :: lines) = [] := by
  rw [payloads, filterMap_cons_some h, takeWhile_cons_of_neg (by simpa using hdone)]

theorem bodyEnd_done (hdone : startsWith "[DONE]" data = true) :
    bodyEnd (line :: lines) readError = .done := by
  rw [bodyEnd, filterMap_cons_some h, any_cons, hdone, Bool.true_or, if_pos rfl]

end

theorem scanLine_eq (hbare : startsWith "[DONE]" line = false) : scanLine line =
    (payload? line).elim .skipped fun data =>
      if startsWith "[DONE]" data then .done else .payload data := by
  rw [scanLine, payload?]
  by_cases hlength : line.utf8ByteSize < 6
  · rw [if_pos hlength, if_neg fun h => absurd h.1 (by omega), elim_none]
  rw [if_neg hlength]
  by_cases hdata : startsWith "data:" line = true
  · rw [if_neg fun h => by simp [hdata] at h]
    dsimp only
    by_cases hempty : trimSpace (String.ofList (line.toList.drop 5)) = ""
    · rw [if_pos hempty, if_neg fun h => h.2.2 hempty, elim_none]
    · have hboth : 6 ≤ line.utf8ByteSize ∧ startsWith "data:" line = true ∧
          trimSpace (String.ofList (line.toList.drop 5)) ≠ "" := ⟨by omega, hdata, hempty⟩
      rw [if_neg hempty, if_pos hboth, elim_some]
  · rw [if_pos ⟨by simpa using hdata, hbare⟩, if_neg fun h => absurd h.2.1 hdata, elim_none]

end lines

namespace StreamState

variable {s s' : StreamState} {lines : List String} {readError : Bool}

/-- The payloads the scanner has not sent yet, those it has read and those it will read. -/
def ahead (s : StreamState) : List String :=
  match s.scanner with
  | .scanning => payloads s.upstream
  | .checking line => payloads (line :: s.upstream)
  | .sending data => data :: payloads s.upstream
  | _ => []

def unread (s : StreamState) : List String :=
  match s.scanner with
  | .checking line => line :: s.upstream
  | _ => s.upstream

def counted (s : StreamState) : ℕ :=
  match s.scanner with
  | .sending _ => 1
  | _ => 0

def Reads (s : StreamState) : Prop := s.scanner = .scanning ∨ s.ScannerHasLine

/-- What is handled, waiting and ahead is what the body holds. -/
structure BodyInv (lines : List String) (readError : Bool) (s : StreamState) : Prop where
  sum : s.calls ++ s.dataChan ++ s.ahead = payloads lines
  count : s.receivedResponseCount = s.calls.length + s.dataChan.length + s.counted
  bare : s.Reads → ∀ line ∈ s.unread, startsWith "[DONE]" line = false
  reading : s.Reads → s.endReason = none ∧ bodyEnd s.unread readError = bodyEnd lines readError
  ended : ¬ s.Reads → s.endReason = some (bodyEnd lines readError)
  error : s.readError = readError

theorem Reads.ne (h : s.Reads) :
    s.scanner ≠ .closing ∧ s.scanner ≠ .signalling ∧ s.scanner ≠ .exited := by
  rcases h with h | ⟨_, h⟩ | ⟨_, h⟩ <;> simp [h]

theorem BodyInv.of_ended (hnot : s'.scanner = .closing ∨ s'.scanner = .signalling ∨
      s'.scanner = .exited) (hsum : s'.calls ++ s'.dataChan = payloads lines)
    (hcount : s'.receivedResponseCount = s'.calls.length + s'.dataChan.length)
    (hended : s'.endReason = some (bodyEnd lines readError)) (herror : s'.readError = readError) :
    BodyInv lines readError s' := by
  have hreads : ¬ s'.Reads := by
    intro hr
    rcases hnot with h | h | h
    · exact hr.ne.1 h
    · exact hr.ne.2.1 h
    · exact hr.ne.2.2 h
  have hahead : s'.ahead = [] := by rcases hnot with h | h | h <;> rw [ahead, h]
  have hcounted : s'.counted = 0 := by rcases hnot with h | h | h <;> rw [counted, h]
  refine ⟨?_, ?_, fun h => absurd h hreads, fun h => absurd h hreads, fun _ => hended, herror⟩
  · rw [hahead, append_nil, hsum]
  · rw [hcounted, hcount]
    rfl

variable {line : String} {rest : List String}

theorem BodyInv.read (h : BodyInv lines readError s)
    (hat : s.scanner = .scanning) (hline : s.upstream = line :: rest) :
    BodyInv lines readError { s with upstream := rest, scanner := .checking line } := by
  obtain ⟨hsum, hcount, hbare, hreading, -, herror⟩ := h
  have hahead : s.ahead = payloads (line :: rest) := by rw [ahead, hat, hline]
  have hunread : s.unread = line :: rest := by rw [unread, hat, hline]
  have hcounted : s.counted = 0 := by rw [counted, hat]
  rw [hahead] at hsum
  rw [hcounted] at hcount
  rw [hunread] at hbare hreading
  exact ⟨hsum, hcount, fun _ => hbare (.inl hat), fun _ => hreading (.inl hat),
    fun hnot => absurd (.inr (.inl ⟨line, rfl⟩)) hnot, herror⟩

theorem BodyInv.ends (h : BodyInv lines readError s) (hat : s.scanner = .scanning)
    (hline : s.upstream = []) :
    BodyInv lines readError { s with
      endReason := s.endReason.or (some (if s.readError then .scannerErr else .eof))
      scanner := .closing } := by
  obtain ⟨hsum, hcount, -, hreading, -, herror⟩ := h
  have hahead : s.ahead = [] := by rw [ahead, hat, hline]; rfl
  have hunread : s.unread = [] := by rw [unread, hat, hline]
  have hcounted : s.counted = 0 := by rw [counted, hat]
  rw [hahead, append_nil] at hsum
  rw [hcounted] at hcount
  obtain ⟨hreason, hend⟩ := hreading (.inl hat)
  rw [hunread] at hend
  refine .of_ended (.inl rfl) hsum hcount ?_ herror
  simp only [hreason, ← hend, herror]
  rfl

theorem BodyInv.proceed (h : BodyInv lines readError s)
    (hat : s.scanner = .checking line) : BodyInv lines readError (s.proceed line) := by
  have hreads : s.Reads := .inr (.inl ⟨line, hat⟩)
  obtain ⟨hsum, hcount, hbare, hreading, -, herror⟩ := h
  have hahead : s.ahead = payloads (line :: s.upstream) := by rw [ahead, hat]
  have hunread : s.unread = line :: s.upstream := by rw [unread, hat]
  have hcounted : s.counted = 0 := by rw [counted, hat]
  rw [hahead] at hsum
  rw [hcounted] at hcount
  rw [hunread] at hbare hreading
  obtain ⟨hline, hrest⟩ := forall_mem_cons.1 (hbare hreads)
  obtain ⟨hreason, hend⟩ := hreading hreads
  have hscan := scanLine_eq hline
  rcases hpayload : payload? line with _ | data
  · rw [hpayload, elim_none] at hscan
    rw [StreamState.proceed, hscan]
    rw [payloads_none hpayload] at hsum
    rw [bodyEnd_none hpayload] at hend
    exact ⟨hsum, hcount, fun _ => hrest, fun _ => ⟨hreason, hend⟩,
      fun hnot => absurd (.inl rfl) hnot, herror⟩
  rw [hpayload, elim_some] at hscan
  by_cases hdone : startsWith "[DONE]" data = true
  · rw [if_pos hdone] at hscan
    rw [StreamState.proceed, hscan]
    rw [payloads_done hpayload hdone, append_nil] at hsum
    rw [bodyEnd_done hpayload hdone] at hend
    refine .of_ended (.inl rfl) hsum hcount ?_ herror
    simp only [setEndReason, hreason, ← hend]
    rfl
  · rw [if_neg hdone] at hscan
    rw [Bool.not_eq_true] at hdone
    rw [StreamState.proceed, hscan]
    rw [payloads_some hpayload hdone] at hsum
    rw [bodyEnd_some hpayload hdone] at hend
    exact ⟨hsum, congrArg (· + 1) hcount, fun _ => hrest, fun _ => ⟨hreason, hend⟩,
      fun hnot => absurd (.inr (.inr ⟨data, rfl⟩)) hnot, herror⟩

variable {data : String}

theorem BodyInv.send (h : BodyInv lines readError s)
    (hat : s.scanner = .sending data) :
    BodyInv lines readError { s with scanner := .scanning, dataChan := s.dataChan ++ [data] } := by
  have hreads : s.Reads := .inr (.inr ⟨data, hat⟩)
  obtain ⟨hsum, hcount, hbare, hreading, -, herror⟩ := h
  have hahead : s.ahead = data :: payloads s.upstream := by rw [ahead, hat]
  have hunread : s.unread = s.upstream := by rw [unread, hat]
  have hcounted : s.counted = 1 := by rw [counted, hat]
  rw [hahead] at hsum
  rw [hcounted] at hcount
  rw [hunread] at hbare hreading
  refine ⟨?_, ?_, fun _ => hbare hreads, fun _ => hreading hreads,
    fun hnot => absurd (.inl rfl) hnot, herror⟩
  · simp [← hsum, ahead]
  · simp only [hcount, counted, length_append, length_singleton]
    omega

theorem BodyInv.sums (h : BodyInv lines readError s) (hnot : ¬ s.Reads) :
    s.calls ++ s.dataChan = payloads lines ∧
      s.receivedResponseCount = s.calls.length + s.dataChan.length := by
  have hnil : s.ahead = [] ∧ s.counted = 0 := by
    rcases hat : s.scanner with _ | line | data | _ | _ | _
    · exact absurd (.inl hat) hnot
    · exact absurd (.inr (.inl ⟨line, hat⟩)) hnot
    · exact absurd (.inr (.inr ⟨data, hat⟩)) hnot
    all_goals exact ⟨by rw [ahead, hat], by rw [counted, hat]⟩
  have hsum := h.sum
  have hcount := h.count
  rw [hnil.1, append_nil] at hsum
  rw [hnil.2] at hcount
  exact ⟨hsum, hcount⟩

theorem BodyInv.receive (h : BodyInv lines readError s)
    (hdata : s.dataChan = data :: rest) :
    BodyInv lines readError { s with
      handler := .handling data, dataChan := rest, calls := s.calls ++ [data] } := by
  obtain ⟨hsum, hcount, hbare, hreading, hended, herror⟩ := h
  refine ⟨?_, ?_, hbare, hreading, hended, herror⟩
  · rw [← hsum, hdata]
    simp only [append_assoc, singleton_append]
    rfl
  · simp only [hcount, hdata, length_append, length_cons, length_nil]
    change _ = _ + s.counted
    omega

/-- The caller's token, once it has put it in. -/
def notified (s : StreamState) : ℕ :=
  match s.main with
  | .waiting => 1
  | .returned => 1
  | _ => 0

/-- The payloads are delivered, and nobody moves on before the scanner has ended. -/
structure Delivery (lines : List String) (readError : Bool) (s : StreamState) : Prop where
  body : BodyInv lines readError s
  stopInv : StopInv s
  stays : s.clientGone = false
  quiet : s.dataClosed = false → s.main = .selecting ∧ s.cancelled = false
  left : ∀ why, s.handler.why? = some why → why = .drained ∧ s.dataChan = []
  le : s.stopChan ≤ s.scanner.sent + s.handler.sent + s.notified
  cancelled : s.main = .notifying ∨ s.main = .waiting → s.cancelled = true
  done : s.main = .returned → s.AllDone

/-- An event that is none of a timer, a failing ping, the client leaving or the handler stopping. -/
def Undisturbed (e : StreamEvent) : Prop :=
  e ≠ .main .timeout ∧ e ≠ .main .drainTimeout ∧ e ≠ .ping .fail ∧ e ≠ .clientLeaves ∧
    ∀ outcome, e = .handler (.returns outcome) → outcome = .next

theorem Delivery.not_stopped (h : Delivery lines readError s) : ¬ s.HandlerStopped := by
  rintro (hw | hw) <;> cases (h.left _ hw).1

theorem Delivery.reads (h : Delivery lines readError s) (hreads : s.Reads) :
    ¬ s.StopReady ∧ s.cancelled = false ∧ s.main = .selecting ∧ s.handler.why? = none := by
  have hopen := h.stopInv.open_of hreads.ne.2.1 hreads.ne.2.2
  obtain ⟨hmain, hcancelled⟩ := h.quiet hopen
  refine ⟨h.stopInv.no_token hmain h.not_stopped hopen, hcancelled, hmain, ?_⟩
  rcases hwhy : s.handler.why? with _ | why
  · rfl
  · obtain ⟨rfl, -⟩ := h.left why hwhy
    rw [h.stopInv.drained hwhy] at hopen
    cases hopen

theorem signalled_le (s : StreamState) : s.signalled ≤ s.stopChan + 1 := by
  rw [signalled]
  split_ifs <;> omega

theorem delivery_start (hbare : ∀ line ∈ lines, startsWith "[DONE]" line = false)
    (pingEnabled : Bool) : Delivery lines readError (start lines readError pingEnabled) where
  body := ⟨rfl, rfl, fun _ => hbare, fun _ => ⟨rfl, rfl⟩, fun h => absurd (.inl rfl) h, rfl⟩
  stopInv := stopInv_start lines readError pingEnabled
  stays := rfl
  quiet := fun _ => ⟨rfl, rfl⟩
  left := nofun
  le := Nat.zero_le _
  cancelled := by rintro (h | h) <;> cases h
  done := nofun

theorem Delivery.scanner_reads (h : Delivery lines readError s) (hreads : s.Reads)
    (hbody : BodyInv lines readError s') (hinv : StopInv s')
    (hframe : (s'.handler, s'.main, s'.clientGone, s'.cancelled, s'.stopChan) =
      (s.handler, s.main, s.clientGone, s.cancelled, s.stopChan)) :
    Delivery lines readError s' := by
  simp only [Prod.mk.injEq] at hframe
  obtain ⟨hhandler, hmain, hgone, hcancelled, hchan⟩ := hframe
  obtain ⟨hstop, hnot, hselecting, hwhy⟩ := h.reads hreads
  refine ⟨hbody, hinv, by rw [hgone, h.stays], fun _ => ?_, fun why hw => ?_, ?_, ?_, ?_⟩
  · rw [hmain, hcancelled]
    exact ⟨hselecting, hnot⟩
  · rw [hhandler, hwhy] at hw
    cases hw
  · have hzero : s.stopChan = 0 := Nat.eq_zero_of_not_pos fun hpos => hstop (.inl hpos)
    rw [hchan, hzero]
    exact Nat.zero_le _
  · rw [hmain, hselecting]
    rintro (hm | hm) <;> cases hm
  · rw [hmain, hselecting]
    exact nofun

theorem ScannerMove.delivery {e : ScannerEvent} (hmove : ScannerMove s e s')
    (h : Delivery lines readError s) : Delivery lines readError s' := by
  have hinv := hmove.stopInv h.stopInv
  cases hmove with
  | read _ _ hat hline =>
    exact h.scanner_reads (.inl hat) (h.body.read hat hline) hinv rfl
  | ends hat hline => exact h.scanner_reads (.inl hat) (h.body.ends hat hline) hinv rfl
  | stop hat hready => exact absurd hready (h.reads (.inr hat)).1
  | cancelled hat hcancelled =>
    rw [(h.reads (.inr hat)).2.1] at hcancelled
    cases hcancelled
  | client _ hgone =>
    rw [h.stays] at hgone
    cases hgone
  | proceed line hat =>
    refine h.scanner_reads (.inr (.inl ⟨line, hat⟩)) (h.body.proceed hat) hinv ?_
    rw [StreamState.proceed]
    split <;> rfl
  | send data hat =>
    exact h.scanner_reads (.inr (.inr ⟨data, hat⟩)) (h.body.send hat) hinv rfl
  | close hat =>
    have hnot : ¬ s.Reads := fun hr => hr.ne.1 hat
    obtain ⟨hsum, hcount⟩ := h.body.sums hnot
    have hle := h.le
    rw [hat] at hle
    exact ⟨.of_ended (.inr (.inl rfl)) hsum hcount (h.body.ended hnot) h.body.error, hinv, h.stays,
      (fun hopen => by cases hopen), h.left, hle, h.cancelled, fun hm => ⟨.inl rfl, (h.done hm).2⟩⟩
  | signal hat =>
    have hnot : ¬ s.Reads := fun hr => hr.ne.2.1 hat
    obtain ⟨hsum, hcount⟩ := h.body.sums hnot
    have hle := h.le
    have hsignalled := s.signalled_le
    rw [hat] at hle
    simp only [ScannerAt.sent] at hle
    refine ⟨.of_ended (.inr (.inr rfl)) hsum hcount (h.body.ended hnot) h.body.error, hinv, h.stays,
      h.quiet, h.left, ?_, h.cancelled, fun hm => ⟨.inr rfl, (h.done hm).2⟩⟩
    simp only [ScannerAt.sent]
    change _ ≤ _ + s.notified
    omega

theorem Delivery.not_returned (h : Delivery lines readError s)
    (hat : ∀ why, s.handler ≠ .signalling why ∧ s.handler ≠ .exited why) :
    s.main ≠ .returned := by
  intro hm
  obtain ⟨-, ⟨why, -, hhandler⟩, -⟩ := h.done hm
  rcases hhandler with hhandler | hhandler
  · exact (hat why).1 hhandler
  · exact (hat why).2 hhandler

theorem HandlerMove.delivery {e : HandlerEvent} (hmove : HandlerMove s e s')
    (h : Delivery lines readError s) (he : Undisturbed (.handler e)) :
    Delivery lines readError s' := by
  have hinv := hmove.stopInv h.stopInv
  have hle := h.le
  obtain ⟨hsum, hcount, hbare, hreading, hended, herror⟩ := h.body
  cases hmove with
  | receive _ _ hat hdata =>
    have hm : s.main ≠ .returned := h.not_returned (by simp [hat])
    rw [hat] at hle
    exact ⟨h.body.receive hdata, hinv, h.stays, h.quiet, nofun, hle, h.cancelled,
      fun hret => absurd hret hm⟩
  | drained hat hdata =>
    have hm : s.main ≠ .returned := h.not_returned (by simp [hat])
    rw [hat] at hle
    refine ⟨⟨hsum, hcount, hbare, hreading, hended, herror⟩, hinv, h.stays, h.quiet,
      fun why hw => ?_, hle, h.cancelled, fun hret => absurd hret hm⟩
    cases hw
    exact ⟨rfl, hdata⟩
  | returns _ outcome hat =>
    have hm : s.main ≠ .returned := h.not_returned (by simp [hat])
    obtain rfl := he.2.2.2.2 outcome rfl
    rw [hat] at hle
    exact ⟨⟨hsum, hcount, hbare, hreading, hended, herror⟩, hinv, h.stays, h.quiet, nofun, hle,
      h.cancelled, fun hret => absurd hret hm⟩
  | leave why hat =>
    have hm : s.main ≠ .returned := h.not_returned (by simp [hat])
    have hleft := h.left why (by rw [hat]; rfl)
    have hwhy : why ≠ .panicked := by
      rw [hleft.1]
      exact nofun
    rw [hat] at hle
    rw [if_neg hwhy] at hinv ⊢
    refine ⟨⟨hsum, hcount, hbare, hreading, hended, herror⟩, hinv, h.stays, h.quiet,
      fun why' hw => ?_, hle, h.cancelled, fun hret => absurd hret hm⟩
    cases hw
    exact hleft
  | signal why hat =>
    have hleft := h.left why (by rw [hat]; rfl)
    have hsignalled := s.signalled_le
    rw [hat] at hle
    simp only [HandlerAt.sent] at hle
    refine ⟨⟨hsum, hcount, hbare, hreading, hended, herror⟩, hinv, h.stays, h.quiet,
      fun why' hw => ?_, ?_, h.cancelled, fun hret => ?_⟩
    · cases hw
      exact hleft
    · simp only [HandlerAt.sent]
      change _ ≤ _ + s.notified
      omega
    · exact ⟨(h.done hret).1, ⟨why, by cases why <;> decide, .inr rfl⟩, (h.done hret).2.2⟩

theorem PingMove.delivery {e : PingEvent} (hmove : PingMove s e s')
    (h : Delivery lines readError s) (he : Undisturbed (.ping e)) :
    Delivery lines readError s' := by
  have hinv := hmove.stopInv h.stopInv fun _ _ => h.not_stopped
  have hle := h.le
  obtain ⟨hsum, hcount, hbare, hreading, hended, herror⟩ := h.body
  have hactive : s.PingActive → s.main ≠ .returned := by
    intro hat hret
    rcases hat with hat | hat <;> rcases (h.done hret).2.2 with hp | hp <;>
      rw [hat] at hp <;> cases hp
  cases hmove with
  | tick hat | expire hat =>
    exact ⟨⟨hsum, hcount, hbare, hreading, hended, herror⟩, hinv, h.stays, h.quiet, h.left, hle,
      h.cancelled, fun hret => absurd hret (hactive (.inl hat))⟩
  | sent hat =>
    exact ⟨⟨hsum, hcount, hbare, hreading, hended, herror⟩, hinv, h.stays, h.quiet, h.left, hle,
      h.cancelled, fun hret => absurd hret (hactive (.inr hat))⟩
  | fail => exact absurd rfl he.2.2.1
  | stop hat =>
    exact ⟨⟨hsum, hcount, hbare, hreading, hended, herror⟩, hinv, h.stays, h.quiet, h.left,
      (Nat.sub_le _ _).trans hle, h.cancelled, fun hret => absurd hret (hactive hat)⟩
  | cancelled hat =>
    exact ⟨⟨hsum, hcount, hbare, hreading, hended, herror⟩, hinv, h.stays, h.quiet, h.left, hle,
      h.cancelled, fun hret => absurd hret (hactive hat)⟩
  | client _ hgone =>
    rw [h.stays] at hgone
    cases hgone

theorem MainMove.delivery {e : MainEvent} (hmove : MainMove s e s')
    (h : Delivery lines readError s) (he : Undisturbed (.main e)) :
    Delivery lines readError s' := by
  have hinv := hmove.stopInv h.stopInv
  have hle := h.le
  obtain ⟨hsum, hcount, hbare, hreading, hended, herror⟩ := h.body
  have hclosed : s.main ≠ .selecting → s.dataClosed = true := by
    intro hm
    by_contra hnot
    exact hm (h.quiet (by simpa using hnot)).1
  cases hmove with
  | stop hat hready =>
    have hready' : s.dataClosed = true := by
      by_contra hnot
      exact h.stopInv.no_token hat h.not_stopped (by simpa using hnot) hready
    refine ⟨⟨hsum, hcount, hbare, hreading, hended, herror⟩, hinv, h.stays,
      fun hopen => absurd hopen (by simp [hready']), h.left, ?_,
      (by rintro (hm | hm) <;> cases hm), nofun⟩
    rw [notified, hat] at hle
    exact (Nat.sub_le _ _).trans hle
  | timeout => exact absurd rfl he.1
  | client _ hgone =>
    rw [h.stays] at hgone
    cases hgone
  | cancel hat =>
    rw [notified, hat] at hle
    exact ⟨⟨hsum, hcount, hbare, hreading, hended, herror⟩, hinv, h.stays,
      fun hopen => absurd hopen (by simp [hclosed (by simp [hat])]), h.left, hle, fun _ => rfl,
      nofun⟩
  | notify hat =>
    have hsignalled := s.signalled_le
    rw [notified, hat] at hle
    refine ⟨⟨hsum, hcount, hbare, hreading, hended, herror⟩, hinv, h.stays,
      fun hopen => absurd hopen (by simp [hclosed (by simp [hat])]), h.left, ?_,
      fun _ => h.cancelled (.inl hat), nofun⟩
    simp only [notified] at hle ⊢
    omega
  | finish hat hdone =>
    rw [notified, hat] at hle
    exact ⟨⟨hsum, hcount, hbare, hreading, hended, herror⟩, hinv, h.stays,
      fun hopen => absurd hopen (by simp [hclosed (by simp [hat])]), h.left, hle,
      (by rintro (hm | hm) <;> cases hm), fun _ => hdone⟩
  | drainTimeout => exact absurd rfl he.2.1

variable {e : StreamEvent}

theorem delivery_step (h : Delivery lines readError s) (he : Undisturbed e) :
    Delivery lines readError (s.step e) := by
  refine step_of_move e h fun s' hmove => ?_
  cases hmove with
  | scanner hmove => exact hmove.delivery h
  | handler hmove | ping hmove | main hmove => exact hmove.delivery h he
  | clientLeaves => exact absurd rfl he.2.2.2.1

def Advances (s : StreamState) (e : StreamEvent) : Prop :=
  Undisturbed e ∧ ¬ Idle e ∧ (s.step? e).isSome = true

theorem advances_of_some (hstep : (s.step? e).isSome = true)
    (hundisturbed : Undisturbed e) (hidle : ¬ Idle e) : ∃ e, s.Advances e :=
  ⟨e, hundisturbed, hidle, hstep⟩

theorem handler_advances
    (hnext : s.dataChan ≠ [] ∨ s.dataClosed = true) (hroom : s.handler.sent = 0 → s.stopChan < 3)
    (hnot : ∀ why, s.handler ≠ .exited why) : ∃ e, s.Advances e := by
  rcases hat : s.handler with _ | data | why | why | why
  · refine @advances_of_some s (.handler .receive) ?_ (by simp [Undisturbed]) (by simp [Idle])
    rcases hdata : s.dataChan with _ | ⟨data, rest⟩
    · have hclosed := hnext.resolve_left (not_not_intro hdata)
      simp [step?, handlerStep, hat, receive, hdata, hclosed]
    · simp [step?, handlerStep, hat, receive, hdata]
  · refine @advances_of_some s (.handler (.returns .next)) ?_ (by simp [Undisturbed])
      (by simp [Idle])
    simp [step?, handlerStep, hat]
  · refine @advances_of_some s (.handler .leave) ?_ (by simp [Undisturbed]) (by simp [Idle])
    simp [step?, handlerStep, hat]
  · refine @advances_of_some s (.handler .signal) ?_ (by simp [Undisturbed]) (by simp [Idle])
    have hcan : s.CanSignal := .inl (hroom (by rw [hat]; rfl))
    simp [step?, handlerStep, hat, hcan]
  · exact absurd hat (hnot why)

theorem notified_le (s : StreamState) : s.notified ≤ 1 := by
  rw [notified]
  split <;> omega

theorem handler_sent_le (s : StreamState) : s.handler.sent ≤ 1 := by
  rcases s.handler <;> simp [HandlerAt.sent]

theorem Delivery.main_advances (h : Delivery lines readError s) (hscanner : s.scanner = .exited)
    {why : HandlerEnd} (hhandler : s.handler = .exited why) (hm : s.main ≠ .returned) :
    ∃ e, s.Advances e := by
  have hle := h.le
  rw [hscanner, hhandler] at hle
  simp only [ScannerAt.sent, HandlerAt.sent] at hle
  rcases hat : s.main
  · obtain ⟨-, -, hge, -⟩ := h.stopInv.tokens hat
    have htokens := hge h.not_stopped
    have htaken : s.ping.taken ≤ 1 := by rcases s.ping <;> decide
    rw [hscanner, hhandler] at htokens
    simp only [ScannerAt.sent, HandlerAt.sent] at htokens
    have hready : s.StopReady := .inl (by omega)
    refine @advances_of_some s (.main .stop) ?_ (by simp [Undisturbed]) (by simp [Idle])
    simp [step?, mainStep, hat, hready]
  · refine @advances_of_some s (.main .cancel) ?_ (by simp [Undisturbed]) (by simp [Idle])
    simp [step?, mainStep, hat]
  · rw [notified, hat] at hle
    have hcan : s.CanSignal := .inl (by simp only at hle; omega)
    refine @advances_of_some s (.main .notify) ?_ (by simp [Undisturbed]) (by simp [Idle])
    simp [step?, mainStep, hat, hcan]
  · have hcancelled := h.cancelled (.inr hat)
    by_cases hping : s.ping = .off ∨ s.ping = .exited
    · have hdone : s.AllDone :=
        ⟨.inr hscanner, ⟨why, by cases why <;> decide, .inr hhandler⟩, hping⟩
      refine @advances_of_some s (.main .finish) ?_ (by simp [Undisturbed]) (by simp [Idle])
      simp [step?, mainStep, hat, hdone]
    · refine @advances_of_some s (.ping .cancelled) ?_ (by simp [Undisturbed]) (by simp [Idle])
      rcases hp : s.ping
      · exact absurd (.inl hp) hping
      · simp [step?, pingStep, hp, hcancelled]
      · simp [step?, pingStep, hp, hcancelled]
      · exact absurd (.inr hp) hping
  · exact absurd hat hm

theorem Delivery.advances (h : Delivery lines readError s) (hm : s.main ≠ .returned) :
    ∃ e, s.Advances e := by
  have hle := h.le
  have hnotified := s.notified_le
  have hsent := s.handler_sent_le
  rcases hat : s.scanner with _ | line | data | _ | _ | _
  · refine @advances_of_some s (.scanner .scan) ?_ (by simp [Undisturbed]) (by simp [Idle])
    simp [step?, scannerStep, hat]
  · obtain ⟨hstop, hcancelled, -, -⟩ := h.reads (.inr (.inl ⟨line, hat⟩))
    refine @advances_of_some s (.scanner .proceed) ?_ (by simp [Undisturbed]) (by simp [Idle])
    simp [step?, scannerStep, hat, hstop, hcancelled, h.stays]
  · obtain ⟨hstop, -, -, hwhy⟩ := h.reads (.inr (.inr ⟨data, hat⟩))
    by_cases hroom : s.dataChan.length < 10
    · refine @advances_of_some s (.scanner .send) ?_ (by simp [Undisturbed]) (by simp [Idle])
      simp [step?, scannerStep, hat, hroom]
    · have hzero : s.stopChan = 0 := Nat.eq_zero_of_not_pos fun hpos => hstop (.inl hpos)
      refine handler_advances (.inl ?_) (fun _ => by omega) fun why hexited => ?_
      · exact ne_nil_of_length_pos (by omega)
      · rw [hexited] at hwhy
        cases hwhy
  · refine @advances_of_some s (.scanner .close) ?_ (by simp [Undisturbed]) (by simp [Idle])
    simp [step?, scannerStep, hat]
  · rw [hat] at hle
    simp only [ScannerAt.sent] at hle
    have hcan : s.CanSignal := .inl (by omega)
    refine @advances_of_some s (.scanner .signal) ?_ (by simp [Undisturbed]) (by simp [Idle])
    simp [step?, scannerStep, hat, hcan]
  · rw [hat] at hle
    simp only [ScannerAt.sent] at hle
    by_cases hexited : ∃ why, s.handler = .exited why
    · obtain ⟨why, hexited⟩ := hexited
      exact h.main_advances hat hexited hm
    · rw [not_exists] at hexited
      exact handler_advances (.inr (h.stopInv.closed.2 (.inr hat))) (fun _ => by omega) hexited

structure Delivers (lines : List String) (readError : Bool) (s : StreamState) : Prop where
  calls : s.main = .returned → s.calls = payloads lines
  finished : s.main = .returned → s.handler.why? = some .drained
  count : s.main = .returned → s.receivedResponseCount = (payloads lines).length
  endReason : s.main = .returned → s.endReason = some (bodyEnd lines readError)
  advances : s.main ≠ .returned → ∃ e, s.Advances e
  bounded : ∀ es, Along step Advances s es → es.length ≤ s.rank

theorem Delivery.returned (h : Delivery lines readError s) (hm : s.main = .returned) :
    s.calls = payloads lines ∧ s.handler.why? = some .drained ∧
      s.receivedResponseCount = (payloads lines).length ∧
      s.endReason = some (bodyEnd lines readError) := by
  obtain ⟨hscanner, ⟨why, -, hhandler⟩, -⟩ := h.done hm
  have hnot : ¬ s.Reads := fun hr => hscanner.elim hr.ne.2.1 hr.ne.2.2
  have hwhy : s.handler.why? = some why := by
    rcases hhandler with hhandler | hhandler <;> rw [hhandler] <;> rfl
  obtain ⟨rfl, hdata⟩ := h.left why hwhy
  obtain ⟨hsum, hcount⟩ := h.body.sums hnot
  rw [hdata, append_nil] at hsum
  rw [hdata, length_nil, Nat.add_zero, hsum] at hcount
  exact ⟨hsum, hwhy, hcount, h.body.ended hnot⟩

/-- Without timers, failing pings, a client that leaves or a handler that stops, the handler is
called on the payloads once each and in order, and the caller returns after the calls. -/
theorem payloads_delivered {pingEnabled : Bool}
    (hbare : ∀ line ∈ lines, startsWith "[DONE]" line = false) {es : List StreamEvent}
    (hes : ∀ e ∈ es, Undisturbed e) :
    Delivers lines readError (run step (start lines readError pingEnabled) es) := by
  have halong : Along step (fun _ e => Undisturbed e) (start lines readError pingEnabled) es :=
    along_iff.2 fun pre e post he => hes e (by simp [he])
  have h := Along.run_inv (I := Delivery lines readError) (fun s e hs he => delivery_step hs he)
    (delivery_start hbare pingEnabled) halong
  exact
    { calls := fun hm => (h.returned hm).1
      finished := fun hm => (h.returned hm).2.1
      count := fun hm => (h.returned hm).2.2.1
      endReason := fun hm => (h.returned hm).2.2.2
      advances := h.advances
      bounded := fun es hes => length_le_rank (fun s e he => he.2) hes }

def deliveredRun : List StreamEvent :=
  [.scanner .scan, .scanner .proceed, .scanner .send, .scanner .scan, .scanner .proceed,
    .scanner .send, .scanner .scan, .scanner .proceed, .scanner .close, .scanner .signal,
    .main .stop, .main .cancel, .handler .receive, .main .notify, .handler (.returns .next),
    .handler .receive, .handler (.returns .next), .handler .receive, .handler .leave,
    .handler .signal, .main .finish]

theorem payloads_delivered_sample :
    (run step (start ["data: a", "data:b", "data: [DONE]"] false false) deliveredRun).main =
        .returned ∧
      (run step (start ["data: a", "data:b", "data: [DONE]"] false false) deliveredRun).calls =
        payloads ["data: a", "data:b", "data: [DONE]"] ∧
      payloads ["data: a", "data:b", "data: [DONE]"] = ["a", "b"] := by
  have hmain : (run step (start ["data: a", "data:b", "data: [DONE]"] false false)
      deliveredRun).main = .returned := by decide
  have hbare : ∀ line ∈ ["data: a", "data:b", "data: [DONE]"],
      startsWith "[DONE]" line = false := by decide
  have hes : ∀ e ∈ deliveredRun, Undisturbed e := by
    simp [deliveredRun, Undisturbed]
  exact ⟨hmain, (payloads_delivered hbare hes).calls hmain, by decide⟩

end StreamState

end AggreApi
