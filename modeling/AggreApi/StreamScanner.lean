import AggreApi.Subscription
import AggreApi.TopUpWebhook

/-!
# The stream scanner

`StreamScannerHandler` reads an upstream body line by line. Three goroutines and the caller move on
their own: the scanner sends payloads through `dataChan`, the handler receives them, pings keep the
connection open, and the caller waits in `main`. Whoever ends puts a token into `stopChan`, and
anyone may take it. An event names the case of a `select` it takes; a case that is not ready is no
step.
-/

namespace AggreApi

/-! ## Lines -/

inductive ScannedLine where
  | skipped
  | payload (data : String)
  | done
  deriving DecidableEq, Repr

def scanLine (line : String) : ScannedLine :=
  if line.utf8ByteSize < 6 then .skipped
  else if startsWith "data:" line = false ∧ startsWith "[DONE]" line = false then .skipped
  else
    let data := trimSpace (String.ofList (line.toList.drop 5))
    if data = "" then .skipped
    else if startsWith "[DONE]" data then .done
    else .payload data

/-! ## Goroutines -/

inductive StreamEndReason where
  | done
  | timeout
  | clientGone
  | scannerErr
  | handlerStop
  | eof
  | panic
  | pingFail
  deriving DecidableEq, Repr

/-- Before `Scan`, with a line, before a send, and in its deferred function. -/
inductive ScannerAt where
  | scanning
  | checking (line : String)
  | sending (data : String)
  | closing
  | signalling
  | exited
  deriving DecidableEq, Repr

/-- Why the handler has left its loop. -/
inductive HandlerEnd where
  | drained
  | stopped
  | panicked
  deriving DecidableEq, Repr

/-- Before a receive, in a call, and in its deferred function. -/
inductive HandlerAt where
  | receiving
  | handling (data : String)
  | leaving (why : HandlerEnd)
  | signalling (why : HandlerEnd)
  | exited (why : HandlerEnd)
  deriving DecidableEq, Repr

/-- Where the pings are; `off` where they are not enabled. -/
inductive PingAt where
  | off
  | waiting
  | pinging
  | exited
  deriving DecidableEq, Repr

/-- Where the caller is: in its `select`, and in its deferred functions. -/
inductive MainAt where
  | selecting
  | cancelling
  | notifying
  | waiting
  | returned
  deriving DecidableEq, Repr

/-- How a call of the data handler ends. -/
inductive HandlerOutcome where
  | next
  | stop
  | done
  | panic
  deriving DecidableEq, Repr

inductive ScannerEvent where
  | scan
  | stop
  | cancelled
  | client
  | proceed
  | send
  | close
  | signal
  deriving DecidableEq, Repr

inductive HandlerEvent where
  | receive
  | returns (outcome : HandlerOutcome)
  | leave
  | signal
  deriving DecidableEq, Repr

/-- `fail` is a ping that fails or is late, `expire` the end of the thirty minutes. -/
inductive PingEvent where
  | tick
  | sent
  | fail
  | stop
  | cancelled
  | client
  | expire
  deriving DecidableEq, Repr

/-- `timeout` is the streaming timeout, `drainTimeout` the end of the wait for the goroutines. -/
inductive MainEvent where
  | stop
  | timeout
  | client
  | cancel
  | notify
  | finish
  | drainTimeout
  deriving DecidableEq, Repr

inductive StreamEvent where
  | scanner (e : ScannerEvent)
  | handler (e : HandlerEvent)
  | ping (e : PingEvent)
  | main (e : MainEvent)
  | clientLeaves
  deriving DecidableEq, Repr

/-! ## The state -/

/-- What the goroutines share, and where each is. -/
structure StreamState where
  upstream : List String
  readError : Bool
  scanner : ScannerAt := .scanning
  handler : HandlerAt := .receiving
  ping : PingAt
  main : MainAt := .selecting
  dataChan : List String := []
  dataClosed : Bool := false
  stopChan : ℕ := 0
  stopClosed : Bool := false
  cancelled : Bool := false
  clientGone : Bool := false
  endReason : Option StreamEndReason := none
  receivedResponseCount : ℕ := 0
  calls : List String := []
  deriving DecidableEq, Repr

namespace StreamState

variable (s : StreamState)

/-- `SetEndReason`: the first one stays. -/
def setEndReason (reason : StreamEndReason) : StreamState :=
  { s with endReason := s.endReason.or (some reason) }

/-- A receive from `stopChan` does not block: there is a token, or the channel is closed. -/
def StopReady : Prop := 0 < s.stopChan ∨ s.stopClosed = true

instance : Decidable s.StopReady := inferInstanceAs (Decidable (_ ∨ _))

def takeStop : StreamState := { s with stopChan := s.stopChan - 1 }

def CanSignal : Prop := s.stopChan < 3 ∨ s.stopClosed = true

instance : Decidable s.CanSignal := inferInstanceAs (Decidable (_ ∨ _))

/-- `SafeSendBool`. -/
def signal : StreamState :=
  if s.stopClosed then s else { s with stopChan := s.stopChan + 1 }

/-! ## The scanner -/

/-- `Scan`, and what follows the loop. -/
def scan : StreamState :=
  match s.upstream with
  | line :: rest => { s with upstream := rest, scanner := .checking line }
  | [] =>
    let s := if s.readError then s.setEndReason .scannerErr else s
    { s.setEndReason .eof with scanner := .closing }

def proceed (line : String) : StreamState :=
  match scanLine line with
  | .skipped => { s with scanner := .scanning }
  | .payload data =>
    { s with scanner := .sending data, receivedResponseCount := s.receivedResponseCount + 1 }
  | .done => { s.setEndReason .done with scanner := .closing }

def scannerStep (e : ScannerEvent) : Option StreamState :=
  match s.scanner, e with
  | .scanning, .scan => some s.scan
  | .checking _, .stop => if s.StopReady then some { s.takeStop with scanner := .closing } else none
  | .checking _, .cancelled => if s.cancelled then some { s with scanner := .closing } else none
  | .checking _, .client =>
    if s.clientGone then some { s.setEndReason .clientGone with scanner := .closing } else none
  | .checking line, .proceed =>
    if ¬ s.StopReady ∧ s.cancelled = false ∧ s.clientGone = false then some (s.proceed line)
    else none
  | .sending data, .send =>
    if s.dataChan.length < 10 then
      some { s with scanner := .scanning, dataChan := s.dataChan ++ [data] }
    else none
  | .sending _, .stop => if s.StopReady then some { s.takeStop with scanner := .closing } else none
  | .sending _, .cancelled => if s.cancelled then some { s with scanner := .closing } else none
  | .closing, .close => some { s with scanner := .signalling, dataClosed := true }
  | .signalling, .signal => if s.CanSignal then some { s.signal with scanner := .exited } else none
  | _, _ => none

/-! ## The handler -/

def callReturns (outcome : HandlerOutcome) : StreamState :=
  match outcome with
  | .next => { s with handler := .receiving }
  | .stop => { s.setEndReason .handlerStop with handler := .leaving .stopped }
  | .done => { s.setEndReason .done with handler := .leaving .stopped }
  | .panic => { s with handler := .leaving .panicked }

/-- A receive from `dataChan`, which ends the loop once the channel is closed and empty. -/
def receive : Option StreamState :=
  match s.dataChan with
  | data :: rest =>
    some { s with handler := .handling data, dataChan := rest, calls := s.calls ++ [data] }
  | [] => if s.dataClosed then some { s with handler := .leaving .drained } else none

def handlerStep (e : HandlerEvent) : Option StreamState :=
  match s.handler, e with
  | .receiving, .receive => s.receive
  | .handling _, .returns outcome => some (s.callReturns outcome)
  | .leaving why, .leave =>
    let s := if why = .panicked then s.setEndReason .panic else s
    some { s with handler := .signalling why }
  | .signalling why, .signal =>
    if s.CanSignal then some { s.signal with handler := .exited why } else none
  | _, _ => none

/-! ## The pings -/

def pingStep (e : PingEvent) : Option StreamState :=
  match s.ping, e with
  | .waiting, .tick => some { s with ping := .pinging }
  | .pinging, .sent => some { s with ping := .waiting }
  | .pinging, .fail => some { s.setEndReason .pingFail with ping := .exited }
  | .waiting, .stop => if s.StopReady then some { s.takeStop with ping := .exited } else none
  | .pinging, .stop => if s.StopReady then some { s.takeStop with ping := .exited } else none
  | .waiting, .cancelled => if s.cancelled then some { s with ping := .exited } else none
  | .pinging, .cancelled => if s.cancelled then some { s with ping := .exited } else none
  | .waiting, .client => if s.clientGone then some { s with ping := .exited } else none
  | .waiting, .expire => some { s with ping := .exited }
  | _, _ => none

/-! ## The caller -/

/-- Every goroutine has called `wg.Done`. -/
def AllDone : Prop :=
  (s.scanner = .signalling ∨ s.scanner = .exited) ∧
    (∃ why ∈ [HandlerEnd.drained, .stopped, .panicked],
      s.handler = .signalling why ∨ s.handler = .exited why) ∧
    (s.ping = .off ∨ s.ping = .exited)

instance : Decidable s.AllDone := inferInstanceAs (Decidable (_ ∧ _ ∧ _))

def mainStep (e : MainEvent) : Option StreamState :=
  match s.main, e with
  | .selecting, .stop => if s.StopReady then some { s.takeStop with main := .cancelling } else none
  | .selecting, .timeout => some { s.setEndReason .timeout with main := .cancelling }
  | .selecting, .client =>
    if s.clientGone then some { s.setEndReason .clientGone with main := .cancelling } else none
  | .cancelling, .cancel => some { s with main := .notifying, cancelled := true }
  | .notifying, .notify => if s.CanSignal then some { s.signal with main := .waiting } else none
  | .waiting, .finish =>
    if s.AllDone then some { s with main := .returned, stopClosed := true } else none
  | .waiting, .drainTimeout => some { s with main := .returned, stopClosed := true }
  | _, _ => none

/-! ## Steps -/

def step? : StreamEvent → Option StreamState
  | .scanner e => s.scannerStep e
  | .handler e => s.handlerStep e
  | .ping e => s.pingStep e
  | .main e => s.mainStep e
  | .clientLeaves => some { s with clientGone := true }

def step (e : StreamEvent) : StreamState := (s.step? e).getD s

def start (upstream : List String) (readError pingEnabled : Bool) : StreamState :=
  { upstream, readError, ping := if pingEnabled then .waiting else .off }

end StreamState

end AggreApi
