import AggreApi.StreamScanner

/-!
# Who takes the stop token

The scanner and the handler put a token into `stopChan` when they end. The caller may take it, but
so may the scanner, which then puts one back, and the pings, which do not. A handler that stops has
put in the one the scanner waits for as well, and nothing is left for the caller where the pings
take it.
-/

namespace AggreApi

namespace StreamState

variable {s s' : StreamState}

/-- The tokens after a send to `stopChan`. -/
def signalled (s : StreamState) : ℕ := if s.stopClosed then s.stopChan else s.stopChan + 1

theorem signal_eq (s : StreamState) : s.signal = { s with stopChan := s.signalled } := by
  rw [signal, signalled]
  split_ifs <;> rfl

def ScannerHasLine (s : StreamState) : Prop :=
  (∃ line, s.scanner = .checking line) ∨ ∃ data, s.scanner = .sending data

inductive ScannerMove (s : StreamState) : ScannerEvent → StreamState → Prop
  | read (line : String) (rest : List String) (hat : s.scanner = .scanning)
      (hline : s.upstream = line :: rest) :
      ScannerMove s .scan { s with upstream := rest, scanner := .checking line }
  | ends (hat : s.scanner = .scanning) (hline : s.upstream = []) :
      ScannerMove s .scan { s with
        endReason := s.endReason.or (some (if s.readError then .scannerErr else .eof))
        scanner := .closing }
  | stop (hat : s.ScannerHasLine) (hready : s.StopReady) :
      ScannerMove s .stop { s with stopChan := s.stopChan - 1, scanner := .closing }
  | cancelled (hat : s.ScannerHasLine) (hcancelled : s.cancelled = true) :
      ScannerMove s .cancelled { s with scanner := .closing }
  | client (hat : s.ScannerHasLine) (hgone : s.clientGone = true) :
      ScannerMove s .client { s.setEndReason .clientGone with scanner := .closing }
  | proceed (line : String) (hat : s.scanner = .checking line) (hstop : ¬ s.StopReady)
      (hcancelled : s.cancelled = false) (hgone : s.clientGone = false) :
      ScannerMove s .proceed (s.proceed line)
  | send (data : String) (hat : s.scanner = .sending data) (hroom : s.dataChan.length < 10) :
      ScannerMove s .send { s with scanner := .scanning, dataChan := s.dataChan ++ [data] }
  | close (hat : s.scanner = .closing) :
      ScannerMove s .close { s with scanner := .signalling, dataClosed := true }
  | signal (hat : s.scanner = .signalling) (hroom : s.CanSignal) :
      ScannerMove s .signal { s with stopChan := s.signalled, scanner := .exited }

theorem scan_nil (h : s.upstream = []) : s.scan = { s with
    endReason := s.endReason.or (some (if s.readError then .scannerErr else .eof))
    scanner := .closing } := by
  rw [scan, h]
  rcases hread : s.readError <;> rcases hreason : s.endReason <;>
    simp [setEndReason, hreason, h, hread]

theorem scannerStep_move {e : ScannerEvent} (h : s.scannerStep e = some s') :
    ScannerMove s e s' := by
  unfold scannerStep at h
  split at h
  · rename_i hat
    cases h
    rcases hline : s.upstream with _ | ⟨line, rest⟩
    · rw [scan_nil hline]
      exact .ends hat hline
    · rw [scan, hline]
      exact .read line rest hat hline
  · rename_i line hat
    split_ifs at h with hready
    cases h
    exact .stop (.inl ⟨line, hat⟩) hready
  · rename_i line hat
    split_ifs at h with hcancelled
    cases h
    exact .cancelled (.inl ⟨line, hat⟩) hcancelled
  · rename_i line hat
    split_ifs at h with hgone
    cases h
    exact .client (.inl ⟨line, hat⟩) hgone
  · rename_i line hat
    split_ifs at h with hclear
    cases h
    exact .proceed line hat hclear.1 hclear.2.1 hclear.2.2
  · rename_i data hat
    split_ifs at h with hroom
    cases h
    exact .send data hat hroom
  · rename_i data hat
    split_ifs at h with hready
    cases h
    exact .stop (.inr ⟨data, hat⟩) hready
  · rename_i data hat
    split_ifs at h with hcancelled
    cases h
    exact .cancelled (.inr ⟨data, hat⟩) hcancelled
  · rename_i hat
    cases h
    exact .close hat
  · rename_i hat
    split_ifs at h with hroom
    cases h
    rw [signal_eq]
    exact .signal hat hroom
  · cases h

inductive HandlerMove (s : StreamState) : HandlerEvent → StreamState → Prop
  | receive (data : String) (rest : List String) (hat : s.handler = .receiving)
      (hdata : s.dataChan = data :: rest) :
      HandlerMove s .receive { s with
        handler := .handling data, dataChan := rest, calls := s.calls ++ [data] }
  | drained (hat : s.handler = .receiving) (hdata : s.dataChan = [])
      (hclosed : s.dataClosed = true) :
      HandlerMove s .receive { s with handler := .leaving .drained }
  | returns (data : String) (outcome : HandlerOutcome) (hat : s.handler = .handling data) :
      HandlerMove s (.returns outcome) (s.callReturns outcome)
  | leave (why : HandlerEnd) (hat : s.handler = .leaving why) :
      HandlerMove s .leave { s with
        endReason := if why = .panicked then s.endReason.or (some .panic) else s.endReason
        handler := .signalling why }
  | signal (why : HandlerEnd) (hat : s.handler = .signalling why) (hroom : s.CanSignal) :
      HandlerMove s .signal { s with stopChan := s.signalled, handler := .exited why }

theorem handlerStep_move {e : HandlerEvent} (h : s.handlerStep e = some s') :
    HandlerMove s e s' := by
  unfold handlerStep at h
  split at h
  · rename_i hat
    rw [receive] at h
    split at h
    · rename_i data rest hdata
      cases h
      exact .receive data rest hat hdata
    · rename_i hdata
      split_ifs at h with hclosed
      cases h
      exact .drained hat hdata hclosed
  · rename_i data outcome hat
    cases h
    exact .returns data outcome hat
  · rename_i why hat
    cases h
    have hleave := HandlerMove.leave why hat
    split_ifs at hleave ⊢ <;> exact hleave
  · rename_i why hat
    split_ifs at h with hroom
    cases h
    rw [signal_eq]
    exact .signal why hat hroom
  · cases h

def PingActive (s : StreamState) : Prop := s.ping = .waiting ∨ s.ping = .pinging

inductive PingMove (s : StreamState) : PingEvent → StreamState → Prop
  | tick (hat : s.ping = .waiting) : PingMove s .tick { s with ping := .pinging }
  | sent (hat : s.ping = .pinging) : PingMove s .sent { s with ping := .waiting }
  | fail (hat : s.ping = .pinging) :
      PingMove s .fail { s.setEndReason .pingFail with ping := .exited }
  | stop (hat : s.PingActive) (hready : s.StopReady) :
      PingMove s .stop { s with stopChan := s.stopChan - 1, ping := .exited }
  | cancelled (hat : s.PingActive) (hcancelled : s.cancelled = true) :
      PingMove s .cancelled { s with ping := .exited }
  | client (hat : s.ping = .waiting) (hgone : s.clientGone = true) :
      PingMove s .client { s with ping := .exited }
  | expire (hat : s.ping = .waiting) : PingMove s .expire { s with ping := .exited }

theorem pingStep_move {e : PingEvent} (h : s.pingStep e = some s') : PingMove s e s' := by
  unfold pingStep at h
  split at h
  · rename_i hat
    cases h
    exact .tick hat
  · rename_i hat
    cases h
    exact .sent hat
  · rename_i hat
    cases h
    exact .fail hat
  · rename_i hat
    split_ifs at h with hready
    cases h
    exact .stop (.inl hat) hready
  · rename_i hat
    split_ifs at h with hready
    cases h
    exact .stop (.inr hat) hready
  · rename_i hat
    split_ifs at h with hcancelled
    cases h
    exact .cancelled (.inl hat) hcancelled
  · rename_i hat
    split_ifs at h with hcancelled
    cases h
    exact .cancelled (.inr hat) hcancelled
  · rename_i hat
    split_ifs at h with hgone
    cases h
    exact .client hat hgone
  · rename_i hat
    cases h
    exact .expire hat
  · cases h

inductive MainMove (s : StreamState) : MainEvent → StreamState → Prop
  | stop (hat : s.main = .selecting) (hready : s.StopReady) :
      MainMove s .stop { s with stopChan := s.stopChan - 1, main := .cancelling }
  | timeout (hat : s.main = .selecting) :
      MainMove s .timeout { s.setEndReason .timeout with main := .cancelling }
  | client (hat : s.main = .selecting) (hgone : s.clientGone = true) :
      MainMove s .client { s.setEndReason .clientGone with main := .cancelling }
  | cancel (hat : s.main = .cancelling) :
      MainMove s .cancel { s with main := .notifying, cancelled := true }
  | notify (hat : s.main = .notifying) (hroom : s.CanSignal) :
      MainMove s .notify { s with stopChan := s.signalled, main := .waiting }
  | finish (hat : s.main = .waiting) (hdone : s.AllDone) :
      MainMove s .finish { s with main := .returned, stopClosed := true }
  | drainTimeout (hat : s.main = .waiting) :
      MainMove s .drainTimeout { s with main := .returned, stopClosed := true }

theorem mainStep_move {e : MainEvent} (h : s.mainStep e = some s') : MainMove s e s' := by
  unfold mainStep at h
  split at h
  · rename_i hat
    split_ifs at h with hready
    cases h
    exact .stop hat hready
  · rename_i hat
    cases h
    exact .timeout hat
  · rename_i hat
    split_ifs at h with hgone
    cases h
    exact .client hat hgone
  · rename_i hat
    cases h
    exact .cancel hat
  · rename_i hat
    split_ifs at h with hroom
    cases h
    rw [signal_eq]
    exact .notify hat hroom
  · rename_i hat
    split_ifs at h with hdone
    cases h
    exact .finish hat hdone
  · rename_i hat
    cases h
    exact .drainTimeout hat
  · cases h

/-- Every step is one of a goroutine, or the client leaves. -/
inductive Move (s : StreamState) : StreamEvent → StreamState → Prop
  | scanner {e : ScannerEvent} {s' : StreamState} (h : ScannerMove s e s') : Move s (.scanner e) s'
  | handler {e : HandlerEvent} {s' : StreamState} (h : HandlerMove s e s') : Move s (.handler e) s'
  | ping {e : PingEvent} {s' : StreamState} (h : PingMove s e s') : Move s (.ping e) s'
  | main {e : MainEvent} {s' : StreamState} (h : MainMove s e s') : Move s (.main e) s'
  | clientLeaves : Move s .clientLeaves { s with clientGone := true }

theorem step?_move {e : StreamEvent} (h : s.step? e = some s') : Move s e s' := by
  cases e with
  | scanner => exact .scanner (scannerStep_move h)
  | handler => exact .handler (handlerStep_move h)
  | ping => exact .ping (pingStep_move h)
  | main => exact .main (mainStep_move h)
  | clientLeaves =>
    cases h
    exact .clientLeaves

theorem step_of_move {I : StreamState → Prop} (e : StreamEvent) (h : I s)
    (hmove : ∀ s', Move s e s' → I s') : I (s.step e) := by
  rw [step]
  rcases hstep : s.step? e with _ | s'
  · exact h
  · exact hmove s' (step?_move hstep)

end StreamState

def ScannerAt.rank : ScannerAt → ℕ
  | checking _ => 8
  | sending _ => 7
  | scanning => 3
  | closing => 2
  | signalling => 1
  | exited => 0

def HandlerAt.rank : HandlerAt → ℕ
  | handling _ => 5
  | receiving => 3
  | leaving _ => 2
  | signalling _ => 1
  | exited _ => 0

def PingAt.rank : PingAt → ℕ
  | waiting => 1
  | pinging => 1
  | _ => 0

def MainAt.rank : MainAt → ℕ
  | selecting => 4
  | cancelling => 3
  | notifying => 2
  | waiting => 1
  | returned => 0

namespace StreamState

variable {s s' : StreamState}

/-- The steps that may remain. -/
def rank (s : StreamState) : ℕ :=
  6 * s.upstream.length + s.scanner.rank + 3 * s.dataChan.length + s.handler.rank + s.ping.rank +
    s.main.rank

/-- The events no goroutine waits for its turn to take. -/
def Idle (e : StreamEvent) : Prop := e = .ping .tick ∨ e = .ping .sent ∨ e = .clientLeaves

theorem ScannerMove.rank_lt {e : ScannerEvent} (h : ScannerMove s e s') : s'.rank < s.rank := by
  cases h with
  | read _ _ hat hline =>
    simp only [rank, hat, hline, ScannerAt.rank, List.length_cons]
    omega
  | ends hat hline | close hat | signal hat hroom =>
    simp only [rank, hat, ScannerAt.rank]
    omega
  | stop hat hready | cancelled hat hcancelled =>
    rcases hat with ⟨line, hat⟩ | ⟨data, hat⟩ <;> simp only [rank, hat, ScannerAt.rank] <;> omega
  | client hat =>
    rcases hat with ⟨line, hat⟩ | ⟨data, hat⟩ <;>
      simp only [rank, setEndReason, hat, ScannerAt.rank] <;> omega
  | proceed _ hat =>
    rw [StreamState.proceed]
    split <;> simp only [rank, setEndReason, hat, ScannerAt.rank] <;> omega
  | send _ hat =>
    simp only [rank, hat, ScannerAt.rank, List.length_append, List.length_singleton]
    omega

theorem HandlerMove.rank_lt {e : HandlerEvent} (h : HandlerMove s e s') : s'.rank < s.rank := by
  cases h with
  | receive _ _ hat hdata =>
    simp only [rank, hat, hdata, HandlerAt.rank, List.length_cons]
    omega
  | drained hat hdata hclosed | leave why hat | signal why hat hroom =>
    simp only [rank, hat, HandlerAt.rank]
    omega
  | returns _ outcome hat =>
    cases outcome <;> simp only [rank, callReturns, setEndReason, hat, HandlerAt.rank] <;> omega

theorem PingMove.rank_lt {e : PingEvent} (h : PingMove s e s') (he : e ≠ .tick ∧ e ≠ .sent) :
    s'.rank < s.rank := by
  cases h with
  | tick => exact absurd rfl he.1
  | sent => exact absurd rfl he.2
  | fail hat =>
    simp only [rank, setEndReason, hat, PingAt.rank]
    omega
  | stop hat hready | cancelled hat hcancelled =>
    rcases hat with hat | hat <;> simp only [rank, hat, PingAt.rank] <;> omega
  | client hat hgone | expire hat =>
    simp only [rank, hat, PingAt.rank]
    omega

theorem MainMove.rank_lt {e : MainEvent} (h : MainMove s e s') : s'.rank < s.rank := by
  cases h with
  | stop hat hready | cancel hat | notify hat hroom | finish hat hdone | drainTimeout hat =>
    simp only [rank, hat, MainAt.rank]
    omega
  | timeout hat | client hat hgone =>
    simp only [rank, setEndReason, hat, MainAt.rank]
    omega

theorem rank_lt {e : StreamEvent} (h : s.step? e = some s') (he : ¬ Idle e) : s'.rank < s.rank := by
  cases step?_move h with
  | scanner h | handler h | main h => exact h.rank_lt
  | ping h =>
    exact h.rank_lt ⟨fun h' => he (.inl (by rw [h'])), fun h' => he (.inr (.inl (by rw [h'])))⟩
  | clientLeaves => exact absurd (.inr (.inr rfl)) he

theorem length_le_rank {P : StreamState → StreamEvent → Prop}
    (hP : ∀ s e, P s e → ¬ Idle e ∧ (s.step? e).isSome = true) :
    ∀ {es : List StreamEvent} {s : StreamState}, Along step P s es → es.length ≤ s.rank
  | [], _, _ => Nat.zero_le _
  | e :: es, s, ⟨he, hes⟩ => by
    obtain ⟨hidle, hsome⟩ := hP s e he
    obtain ⟨s', hs'⟩ := Option.isSome_iff_exists.1 hsome
    have hlt := rank_lt hs' hidle
    rw [step, hs', Option.getD_some] at hes
    have hlength := length_le_rank hP hes
    rw [List.length_cons]
    omega

end StreamState

def HandlerAt.why? : HandlerAt → Option HandlerEnd
  | leaving why => some why
  | signalling why => some why
  | exited why => some why
  | _ => none

def ScannerAt.sent : ScannerAt → ℕ
  | exited => 1
  | _ => 0

def HandlerAt.sent : HandlerAt → ℕ
  | exited _ => 1
  | _ => 0

def PingAt.taken : PingAt → ℕ
  | exited => 1
  | _ => 0

namespace StreamState

variable {s s' : StreamState}

def HandlerStopped (s : StreamState) : Prop :=
  s.handler.why? = some .stopped ∨ s.handler.why? = some .panicked

instance : Decidable s.HandlerStopped := inferInstanceAs (Decidable (_ ∨ _))

/-- The pings do not take a token from the caller once the handler has stopped. -/
def Spared (s : StreamState) (e : StreamEvent) : Prop :=
  e = .ping .stop → s.main = .selecting → ¬ s.HandlerStopped

instance (e : StreamEvent) : Decidable (s.Spared e) :=
  inferInstanceAs (Decidable (_ → _ → ¬ _))

structure TokensFor (s : StreamState) : Prop where
  stopOpen : s.stopClosed = false
  le : s.stopChan ≤ s.scanner.sent + s.handler.sent
  ge : ¬ s.HandlerStopped → s.scanner.sent + s.handler.sent ≤ s.stopChan + s.ping.taken
  kept : s.HandlerStopped → s.handler.sent = 1 →
    0 < s.stopChan ∨ s.scanner = .closing ∨ s.scanner = .signalling

/-- `dataChan` is closed by the scanner, the handler leaves after that or stops, and there are
tokens for the caller. -/
structure StopInv (s : StreamState) : Prop where
  closed : s.dataClosed = true ↔ s.scanner = .signalling ∨ s.scanner = .exited
  drained : s.handler.why? = some .drained → s.dataClosed = true
  tokens : s.main = .selecting → s.TokensFor

theorem StopInv.no_token (h : StopInv s) (hmain : s.main = .selecting) (hstop : ¬ s.HandlerStopped)
    (hopen : s.dataClosed = false) : ¬ s.StopReady := by
  obtain ⟨hstopOpen, hle, -, -⟩ := h.tokens hmain
  have hscanner : s.scanner.sent = 0 := by
    have hne : s.scanner ≠ .exited := fun hexited => by
      rw [h.closed.2 (.inr hexited)] at hopen
      cases hopen
    rcases hat : s.scanner <;> first | rfl | exact absurd hat hne
  have hhandler : s.handler.sent = 0 := by
    rcases hat : s.handler with _ | _ | why | why | why
    · rfl
    · rfl
    · rfl
    · rfl
    · cases why with
      | drained =>
        rw [h.drained (by rw [hat]; rfl)] at hopen
        cases hopen
      | stopped => exact absurd (.inl (by rw [hat]; rfl)) hstop
      | panicked => exact absurd (.inr (by rw [hat]; rfl)) hstop
  rintro (hready | hready)
  · omega
  · rw [hstopOpen] at hready
    cases hready

theorem stopInv_start (upstream : List String) (readError pingEnabled : Bool) :
    StopInv (start upstream readError pingEnabled) := by
  refine ⟨by simp [start], nofun, fun _ => ⟨rfl, le_rfl, fun _ => Nat.zero_le _, ?_⟩⟩
  rintro (h | h) <;> cases h

theorem StopInv.scanner_open (h : StopInv s) (hopen : s.dataClosed = false)
    (hnot : s.scanner ≠ .closing ∨ s'.scanner = .closing)
    (hat : s'.scanner ≠ .signalling ∧ s'.scanner ≠ .exited)
    (hframe : (s'.handler, s'.ping, s'.main, s'.dataClosed, s'.stopChan, s'.stopClosed) =
      (s.handler, s.ping, s.main, s.dataClosed, s.stopChan, s.stopClosed)) : StopInv s' := by
  simp only [Prod.mk.injEq] at hframe
  obtain ⟨hhandler, hping, hmain, hdata, hchan, hstop⟩ := hframe
  have hnone : ∀ {p : ScannerAt}, p ≠ .exited → p.sent = 0 := by
    rintro (_ | _ | _ | _ | _ | _) hp <;> first | rfl | exact absurd rfl hp
  have hold : s.scanner ≠ .signalling ∧ s.scanner ≠ .exited := by
    constructor
    · intro hs
      rw [h.closed.2 (.inl hs)] at hopen
      cases hopen
    · intro hs
      rw [h.closed.2 (.inr hs)] at hopen
      cases hopen
  have hstopped : s'.HandlerStopped ↔ s.HandlerStopped := by
    rw [HandlerStopped, HandlerStopped, hhandler]
  refine ⟨?_, ?_, fun hm => ?_⟩
  · rw [hdata, hopen]
    simp [hat]
  · rw [hhandler, hdata]
    exact h.drained
  · obtain ⟨hstopOpen, hle, hge, hkept⟩ := h.tokens (hmain ▸ hm)
    rw [hnone hold.2] at hle hge
    refine ⟨by rw [hstop, hstopOpen], ?_, ?_, ?_⟩
    · rwa [hnone hat.2, hhandler, hchan]
    · rwa [hnone hat.2, hhandler, hchan, hping, hstopped]
    · rw [hstopped, hhandler, hchan]
      intro hs hsent
      rcases hkept hs hsent with hpos | hclosing | hsignalling
      · exact .inl hpos
      · exact .inr (.inl (hnot.resolve_left (not_not_intro hclosing)))
      · exact absurd hsignalling hold.1

theorem StopInv.open_of (h : StopInv s) (hsignalling : s.scanner ≠ .signalling)
    (hexited : s.scanner ≠ .exited) : s.dataClosed = false := by
  rcases hdata : s.dataClosed
  · rfl
  · rcases h.closed.1 hdata with hs | hs
    · exact absurd hs hsignalling
    · exact absurd hs hexited

theorem ScannerHasLine.ne (h : s.ScannerHasLine) :
    s.scanner ≠ .closing ∧ s.scanner ≠ .signalling ∧ s.scanner ≠ .exited := by
  rcases h with ⟨_, h⟩ | ⟨_, h⟩ <;> simp [h]

theorem ScannerMove.stopInv {e : ScannerEvent} (h : ScannerMove s e s') (hi : StopInv s) :
    StopInv s' := by
  cases h with
  | read line rest hat hline | send data hat hroom =>
    exact hi.scanner_open (hi.open_of (by simp [hat]) (by simp [hat])) (by simp [hat]) (by simp) rfl
  | ends hat =>
    exact hi.scanner_open (hi.open_of (by simp [hat]) (by simp [hat])) (by simp) (by simp) rfl
  | stop hat hready =>
    have hopen := hi.open_of hat.ne.2.1 hat.ne.2.2
    have hsent : s.scanner.sent = 0 := by
      rcases hat with ⟨_, hat⟩ | ⟨_, hat⟩ <;> rw [hat] <;> rfl
    refine ⟨by simp [hopen], hi.drained, fun hmain => ?_⟩
    obtain ⟨hstopOpen, hle, hge, -⟩ := hi.tokens hmain
    rw [hsent] at hle
    refine ⟨hstopOpen, ?_, fun hstop => ?_, fun _ _ => .inr (.inl rfl)⟩
    · simp only [ScannerAt.sent]
      omega
    · exact absurd hready (hi.no_token hmain hstop hopen)
  | cancelled hat hcancelled | client hat hgone =>
    exact hi.scanner_open (hi.open_of hat.ne.2.1 hat.ne.2.2) (by simp) (by simp) rfl
  | proceed _ hat =>
    have hopen := hi.open_of (by simp [hat]) (by simp [hat])
    rw [StreamState.proceed]
    split <;> exact hi.scanner_open hopen (by simp [hat]) (by simp) rfl
  | close hat =>
    refine ⟨by simp, fun _ => rfl, fun hmain => ?_⟩
    obtain ⟨hstopOpen, hle, hge, -⟩ := hi.tokens hmain
    rw [hat] at hle hge
    exact ⟨hstopOpen, hle, hge, fun _ _ => .inr (.inr rfl)⟩
  | signal hat =>
    refine ⟨by simp [hi.closed, hat], hi.drained, fun hmain => ?_⟩
    obtain ⟨hstopOpen, hle, hge, -⟩ := hi.tokens hmain
    have hsignalled : s.signalled = s.stopChan + 1 := by rw [signalled, hstopOpen]; rfl
    rw [hat] at hle hge
    simp only [ScannerAt.sent] at hle hge
    refine ⟨hstopOpen, ?_, fun hstop => ?_, fun _ _ => .inl ?_⟩
    · simp only [ScannerAt.sent, hsignalled]
      omega
    · have := hge hstop
      simp only [ScannerAt.sent, hsignalled]
      omega
    · simp only [hsignalled]
      omega

theorem StopInv.handler_unsent (h : StopInv s) (hsent : s.handler.sent = 0)
    (hsent' : s'.handler.sent = 0) (hstopped : s.HandlerStopped → s'.HandlerStopped)
    (hdrained : s'.handler.why? = some .drained → s.dataClosed = true)
    (hframe : (s'.scanner, s'.ping, s'.main, s'.dataClosed, s'.stopChan, s'.stopClosed) =
      (s.scanner, s.ping, s.main, s.dataClosed, s.stopChan, s.stopClosed)) : StopInv s' := by
  simp only [Prod.mk.injEq] at hframe
  obtain ⟨hscanner, hping, hmain, hdata, hchan, hstop⟩ := hframe
  refine ⟨by rw [hdata, hscanner, h.closed], by rwa [hdata], fun hm => ?_⟩
  obtain ⟨hstopOpen, hle, hge, -⟩ := h.tokens (hmain ▸ hm)
  rw [hsent] at hle hge
  refine ⟨by rw [hstop, hstopOpen], ?_, ?_, ?_⟩
  · rwa [hscanner, hsent', hchan]
  · rw [hscanner, hsent', hchan, hping]
    exact fun hnot => hge (mt hstopped hnot)
  · rw [hsent']
    exact fun _ hone => absurd hone (by decide)

theorem not_stopped (h : s.handler.why? = none) : ¬ s.HandlerStopped := by
  rintro (h' | h') <;> rw [h] at h' <;> cases h'

theorem HandlerMove.stopInv {e : HandlerEvent} (h : HandlerMove s e s') (hi : StopInv s) :
    StopInv s' := by
  cases h with
  | receive _ _ hat =>
    refine hi.handler_unsent (by rw [hat]; rfl) rfl (fun hs => ?_) nofun rfl
    exact absurd hs (not_stopped (by rw [hat]; rfl))
  | drained hat _ hclosed =>
    refine hi.handler_unsent (by rw [hat]; rfl) rfl (fun hs => ?_) (fun _ => hclosed) rfl
    exact absurd hs (not_stopped (by rw [hat]; rfl))
  | returns _ outcome hat =>
    have hsent : s.handler.sent = 0 := by rw [hat]; rfl
    have hrunning : ¬ s.HandlerStopped := not_stopped (by rw [hat]; rfl)
    cases outcome with
    | next | stop | done | panic =>
      exact hi.handler_unsent hsent rfl (fun hs => absurd hs hrunning) nofun rfl
  | leave _ hat =>
    refine hi.handler_unsent (by rw [hat]; rfl) rfl (fun hs => ?_) (fun hw => ?_) rfl
    · rwa [HandlerStopped, hat] at hs
    · exact hi.drained (by rw [hat]; exact hw)
  | signal _ hat =>
    refine ⟨hi.closed, fun hw => hi.drained (by rw [hat]; exact hw), fun hmain => ?_⟩
    obtain ⟨hstopOpen, hle, hge, -⟩ := hi.tokens hmain
    have hsignalled : s.signalled = s.stopChan + 1 := by rw [signalled, hstopOpen]; rfl
    rw [HandlerStopped, hat] at hge
    rw [hat] at hle
    simp only [HandlerAt.sent] at hle hge
    refine ⟨hstopOpen, ?_, fun hstop => ?_, fun _ _ => .inl ?_⟩
    · simp only [HandlerAt.sent, hsignalled]
      omega
    · have := hge hstop
      simp only [HandlerAt.sent, hsignalled]
      omega
    · simp only [hsignalled]
      omega

theorem StopInv.ping_other (h : StopInv s) (htaken : s.ping.taken ≤ s'.ping.taken)
    (hframe : (s'.scanner, s'.handler, s'.main, s'.dataClosed, s'.stopChan, s'.stopClosed) =
      (s.scanner, s.handler, s.main, s.dataClosed, s.stopChan, s.stopClosed)) : StopInv s' := by
  simp only [Prod.mk.injEq] at hframe
  obtain ⟨hscanner, hhandler, hmain, hdata, hchan, hstop⟩ := hframe
  have hstopped : s'.HandlerStopped ↔ s.HandlerStopped := by
    rw [HandlerStopped, HandlerStopped, hhandler]
  refine ⟨by rw [hdata, hscanner, h.closed], by rw [hdata, hhandler]; exact h.drained,
    fun hm => ?_⟩
  obtain ⟨hstopOpen, hle, hge, hkept⟩ := h.tokens (hmain ▸ hm)
  refine ⟨by rw [hstop, hstopOpen], by rwa [hscanner, hhandler, hchan], fun hnot => ?_, ?_⟩
  · have := hge (hstopped.not.1 hnot)
    rw [hscanner, hhandler, hchan]
    omega
  · rwa [hstopped, hhandler, hchan, hscanner]

theorem PingMove.stopInv {e : PingEvent} (h : PingMove s e s') (hi : StopInv s)
    (hspared : s.Spared (.ping e)) : StopInv s' := by
  cases h with
  | tick hat | sent hat => exact hi.ping_other (by rw [hat]; exact le_rfl) rfl
  | fail hat | client hat hgone | expire hat =>
    exact hi.ping_other (by rw [hat]; exact Nat.zero_le _) rfl
  | stop hat hready =>
    have htaken : s.ping.taken = 0 := by rcases hat with hat | hat <;> rw [hat] <;> rfl
    refine ⟨hi.closed, hi.drained, fun hmain => ?_⟩
    obtain ⟨hstopOpen, hle, hge, -⟩ := hi.tokens hmain
    have hnot : ¬ s.HandlerStopped := hspared rfl hmain
    have hsent := hge hnot
    have hpos : 0 < s.stopChan := hready.resolve_right (by rw [hstopOpen]; exact Bool.false_ne_true)
    refine ⟨hstopOpen, ?_, fun _ => ?_, fun hstop => absurd hstop hnot⟩
    · simp only
      omega
    · simp only [PingAt.taken]
      omega
  | cancelled hat =>
    exact hi.ping_other (by rcases hat with hat | hat <;> rw [hat] <;> exact Nat.zero_le _) rfl

theorem MainMove.stopInv {e : MainEvent} (h : MainMove s e s') (hi : StopInv s) : StopInv s' := by
  cases h with
  | stop hat hready | timeout hat | client hat hgone | cancel hat | notify hat hroom
  | finish hat hdone | drainTimeout hat => exact ⟨hi.closed, hi.drained, nofun⟩

theorem stopInv_step (hi : StopInv s) {e : StreamEvent} (hspared : s.Spared e) :
    StopInv (s.step e) := by
  refine step_of_move e hi fun s' hmove => ?_
  cases hmove with
  | scanner h | handler h | main h => exact h.stopInv hi
  | ping h => exact h.stopInv hi hspared
  | clientLeaves => exact hi.ping_other le_rfl rfl

def Ended (s : StreamState) : Prop :=
  (s.scanner = .closing ∨ s.scanner = .signalling ∨ s.scanner = .exited) ∨ s.handler.why? ≠ none

instance : Decidable s.Ended := inferInstanceAs (Decidable (_ ∨ _))

def Prompt : StreamEvent → Bool
  | .scanner .scan => false
  | .ping .tick => false
  | .ping .sent => false
  | .ping .fail => false
  | .ping .expire => false
  | .main .timeout => false
  | .main .drainTimeout => false
  | .clientLeaves => false
  | _ => true

theorem prompt_not_idle {e : StreamEvent} (h : Prompt e = true) : ¬ Idle e := by
  rintro (rfl | rfl | rfl) <;> cases h

/-- No goroutine has such a step left. -/
def Settled (s : StreamState) : Prop := ∀ e, Prompt e = true → s.step? e = none

theorem ended_step (h : s.Ended) (e : StreamEvent) : (s.step e).Ended := by
  refine step_of_move e h fun s' hmove => ?_
  cases hmove with
  | scanner hmove =>
    cases hmove with
    | read line rest hat hline | send data hat hroom => exact .inr (h.resolve_left (by simp [hat]))
    | ends hat hline | stop hat hready | cancelled hat hcancelled | client hat hgone =>
      exact .inl (.inl rfl)
    | proceed _ hat =>
      have hhandler := h.resolve_left (by simp [hat])
      rw [proceed]
      split <;> exact .inr hhandler
    | close => exact .inl (.inr (.inl rfl))
    | signal => exact .inl (.inr (.inr rfl))
  | handler hmove =>
    cases hmove with
    | receive _ _ hat => exact .inl (h.resolve_right (by simp [hat, HandlerAt.why?]))
    | drained hat hdata hclosed | leave why hat | signal why hat hroom => exact .inr nofun
    | returns _ outcome hat =>
      have hscanner := h.resolve_right (by simp [hat, HandlerAt.why?])
      cases outcome <;> exact .inl hscanner
  | ping hmove | main hmove => cases hmove <;> exact h
  | clientLeaves => exact h

theorem StopInv.woken (hi : StopInv s) (hended : s.Ended) (hsettled : s.Settled) :
    s.main ≠ .selecting := by
  intro hmain
  obtain ⟨hstopOpen, hle, hge, hkept⟩ := hi.tokens hmain
  have hnone : ¬ s.StopReady := by
    have hstop := hsettled (.main .stop) rfl
    simp only [step?, mainStep, hmain] at hstop
    intro hready
    rw [if_pos hready] at hstop
    cases hstop
  have hzero : s.stopChan = 0 := Nat.eq_zero_of_not_pos fun hpos => hnone (.inl hpos)
  have hroom : s.CanSignal := .inl (by omega)
  have hclosing : s.scanner ≠ .closing := by
    intro hat
    have hclose := hsettled (.scanner .close) rfl
    simp [step?, scannerStep, hat] at hclose
  have hsignalling : s.scanner ≠ .signalling := by
    intro hat
    have hsignal := hsettled (.scanner .signal) rfl
    simp [step?, scannerStep, hat, hroom] at hsignal
  rcases hat : s.handler with _ | data | why | why | why
  · have hscanner := (hended.resolve_right (by simp [hat, HandlerAt.why?])).resolve_left hclosing
    have hclosed := hi.closed.2 (.inr (hscanner.resolve_left hsignalling))
    have hreceive := hsettled (.handler .receive) rfl
    rcases hdata : s.dataChan <;>
      simp [step?, handlerStep, receive, hat, hdata, hclosed] at hreceive
  · have hreturns := hsettled (.handler (.returns .next)) rfl
    simp [step?, handlerStep, hat] at hreturns
  · have hleave := hsettled (.handler .leave) rfl
    simp [step?, handlerStep, hat] at hleave
  · have hsignal := hsettled (.handler .signal) rfl
    simp [step?, handlerStep, hat, hroom] at hsignal
  · have hsent : s.handler.sent = 1 := by rw [hat]; rfl
    by_cases hstopped : s.HandlerStopped
    · rcases hkept hstopped hsent with hpos | hc | hc
      · omega
      · exact hclosing hc
      · exact hsignalling hc
    · have hdrained : s.handler.why? = some .drained := by
        cases why with
        | drained => rw [hat]; rfl
        | stopped => exact absurd (.inl (by rw [hat]; rfl)) hstopped
        | panicked => exact absurd (.inr (by rw [hat]; rfl)) hstopped
      have hexited := (hi.closed.1 (hi.drained hdrained)).resolve_left hsignalling
      have hsum := hge hstopped
      have htaken : s.ping.taken ≤ 1 := by
        rcases s.ping <;> decide
      rw [hexited, hsent] at hsum
      simp only [ScannerAt.sent] at hsum
      omega

def Prompted (s : StreamState) (e : StreamEvent) : Prop :=
  Prompt e = true ∧ (s.step? e).isSome = true ∧ s.Spared e

instance (e : StreamEvent) : Decidable (s.Prompted e) :=
  inferInstanceAs (Decidable (_ ∧ _ ∧ _))

/-- Once the scanner or the handler has ended, the goroutines have a bounded number of steps left,
after which the caller waits no more, where no ping takes a token after the handler has stopped. -/
theorem caller_wakes {upstream : List String} {readError pingEnabled : Bool}
    {es es' : List StreamEvent}
    (hes : Along step Spared (start upstream readError pingEnabled) es)
    (hended : (run step (start upstream readError pingEnabled) es).Ended)
    (hes' : Along step Prompted (run step (start upstream readError pingEnabled) es) es') :
    es'.length ≤ (run step (start upstream readError pingEnabled) es).rank ∧
      ((run step (start upstream readError pingEnabled) (es ++ es')).Settled →
        (run step (start upstream readError pingEnabled) (es ++ es')).main ≠ .selecting) := by
  refine ⟨length_le_rank (fun s e he => ⟨prompt_not_idle he.1, he.2.1⟩) hes', fun hsettled => ?_⟩
  have hinv := Along.run_inv (I := StopInv) (fun s e hi hs => stopInv_step hi hs)
    (stopInv_start upstream readError pingEnabled) hes
  have hboth := Along.run_inv (I := fun s => StopInv s ∧ s.Ended)
    (fun s e hi (he : s.Prompted e) => ⟨stopInv_step hi.1 he.2.2, ended_step hi.2 e⟩)
    ⟨hinv, hended⟩ hes'
  rw [run_append] at hsettled ⊢
  exact hboth.1.woken hboth.2 hsettled

def stopRun : List StreamEvent :=
  [.scanner .scan, .scanner .proceed, .scanner .send, .handler .receive, .handler (.returns .stop)]

def wakeRun : List StreamEvent := [.handler .leave, .handler .signal, .main .stop]

theorem caller_wakes_sample : (run step (start ["data: x"] false true) stopRun).Ended ∧
      ((run step (start ["data: x"] false true) (stopRun ++ wakeRun)).Settled →
        (run step (start ["data: x"] false true) (stopRun ++ wakeRun)).main ≠ .selecting) := by
  have hended : (run step (start ["data: x"] false true) stopRun).Ended := by decide
  exact ⟨hended, (@caller_wakes _ _ _ stopRun wakeRun (by decide) hended (by decide)).2⟩

def stolenToken : List StreamEvent :=
  stopRun ++ [StreamEvent.handler .leave, .handler .signal, .ping .stop] ++
    (List.replicate 10 [StreamEvent.scanner .scan, .scanner .proceed, .scanner .send]).flatten ++
    [StreamEvent.scanner .scan, .scanner .proceed]

def stuckState : StreamState where
  upstream := []
  readError := false
  scanner := .sending "x"
  handler := .exited .stopped
  ping := .exited
  dataChan := List.replicate 10 "x"
  endReason := some .handlerStop
  receivedResponseCount := 12
  calls := ["x"]

theorem run_stolenToken :
    run step (start (List.replicate 12 "data: x") false true) stolenToken = stuckState := by
  decide +kernel

/-- The handler has stopped, and nothing but the timeout or the client wakes the caller. -/
theorem stop_token_taken :
    (run step (start (List.replicate 12 "data: x") false true) stolenToken).Ended ∧
      (run step (start (List.replicate 12 "data: x") false true) stolenToken).main = .selecting ∧
      ∀ e, ((run step (start (List.replicate 12 "data: x") false true) stolenToken).step?
        e).isSome → e = .main .timeout ∨ e = .clientLeaves := by
  rw [run_stolenToken]
  refine ⟨by decide, rfl, ?_⟩
  rintro (e | e | e | e | _) h
  · cases e <;> cases h
  · cases e <;> cases h
  · cases e <;> cases h
  · cases e with
    | timeout => exact .inl rfl
    | stop => cases h
    | client => cases h
    | cancel => cases h
    | notify => cases h
    | finish => cases h
    | drainTimeout => cases h
  · exact .inr rfl

end StreamState

end AggreApi
