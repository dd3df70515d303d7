import AggreApi.ChannelContext
import AggreApi.Lib.Procs

/-!
# Polling for a key and disabling one, side by side

Requests and calls of `UpdateChannelStatus` on one channel, without the memory cache. A request
draws a key from the row it loaded under the polling lock, with the polling index read anew, and
saves the info of its copy; a call changes its copy under the lock and saves it after.
-/

namespace AggreApi

structure StatusCall where
  usingKey : String
  status : ChannelStatus
  reason : String := ""

/-- Where a request or a call is, with the row it has read and the key it has drawn. -/
inductive PollWorker where
  | loading
  | loaded (ch : Channel)
  | drawn (ch : Channel) (pick : KeyPick)
  | given (result : Except RelayError KeyPick)
  | calling (call : StatusCall)
  | read (call : StatusCall) (ch : Channel)
  | updated (call : StatusCall) (ch : Channel)
  | returned (call : StatusCall) (ok : Bool)

/-- What a step depends on from outside. -/
structure PollMove where
  draw : ℕ := 0
  now : ℤ := 0
  ok : Bool := true

namespace PollWorker

def locks : PollWorker → Bool
  | drawn _ _ => true
  | _ => false

/-- The row it leaves, and where the worker is then; it waits while the lock is held. -/
def next (unmarshalRaw : String → Option (List String)) (row : Channel) (locked : Bool)
    (m : PollMove) : PollWorker → Channel × PollWorker
  | loading => (row, loaded row)
  | loaded ch =>
    if ch.channelInfo.isMultiKey && ch.getKeys unmarshalRaw ≠ [] && locked then (row, loaded ch)
    else
      match ch.getNextEnabledKey unmarshalRaw
          { draw := m.draw, cached := some row.channelInfo } with
      | .error e => (row, given (.error e))
      | .ok pick =>
        if ch.channelInfo.isMultiKey ∧ ch.channelInfo.multiKeyMode = .polling then
          let channelInfo := { ch.channelInfo with multiKeyPollingIndex := pick.pollingIndex }
          (row, drawn { ch with channelInfo } pick)
        else (row, given (.ok pick))
  | drawn ch pick =>
    (if m.ok then { row with channelInfo := ch.channelInfo } else row, given (.ok pick))
  | given result => (row, given result)
  | calling call =>
    (row, if row.status = call.status then returned call false else read call row)
  | read call ch =>
    if ch.channelInfo.isMultiKey && locked then (row, read call ch)
    else
      (row, updated call (ChannelStore.updatedRow unmarshalRaw ch call.usingKey call.status
        call.reason m.now))
  | updated call ch =>
    if m.ok then ({ ch with key := row.key }, returned call true)
    else (row, returned call false)
  | returned call ok => (row, returned call ok)

end PollWorker

inductive PollEvent where
  | request
  | call (c : StatusCall)
  | move (i : ℕ) (m : PollMove)

structure PollState where
  row : Channel
  workers : List PollWorker := []

namespace PollState

def step (unmarshalRaw : String → Option (List String)) (s : PollState) : PollEvent → PollState
  | .request => { s with workers := s.workers ++ [.loading] }
  | .call c => { s with workers := s.workers ++ [.calling c] }
  | .move i m =>
    match s.workers[i]? with
    | none => s
    | some w =>
      let (row, w) := w.next unmarshalRaw s.row (s.workers.any PollWorker.locks) m
      { row, workers := s.workers.set i w }

end PollState

/-- A call of `GetNextEnabledKey` on a cached channel, or a rebuild of the cache. -/
inductive CachedCall where
  | nextKey
  | rebuild
  deriving DecidableEq

namespace ChannelStore

variable (unmarshalRaw : String → Option (List String)) (id : ℕ)

def pollKey (s : ChannelStore) : ChannelStore × Except RelayError KeyPick :=
  match s.channelsIDM.find id with
  | none => (s, .error { errorCode := "get_channel_failed", skipRetry := true })
  | some ch =>
    match ch.getNextEnabledKey unmarshalRaw { cached := some ch.channelInfo } with
    | .error e => (s, .error e)
    | .ok pick =>
      let channelInfo := { ch.channelInfo with multiKeyPollingIndex := pick.pollingIndex }
      ({ s with channelsIDM := s.channelsIDM.put { ch with channelInfo } }, .ok pick)

def pollKeys : ChannelStore → List CachedCall → List (Except RelayError KeyPick)
  | _, [] => []
  | s, .nextKey :: es => (s.pollKey unmarshalRaw id).2 :: pollKeys (s.pollKey unmarshalRaw id).1 es
  | s, .rebuild :: es => pollKeys (s.initChannelCache unmarshalRaw) es

end ChannelStore

end AggreApi
