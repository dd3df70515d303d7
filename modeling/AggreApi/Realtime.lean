import AggreApi.BillingLedger
import AggreApi.TextQuota

/-!
# Realtime sessions

`PreWssConsumeQuota` charges each usage event of a realtime request through `PostConsumeQuota`,
beside the session that `Relay` has opened for it. `Relay` closes the session of a request that
fails.
-/

namespace AggreApi

structure RealtimeUsage where
  inputText : ℤ
  inputAudio : ℤ
  outputText : ℤ
  outputAudio : ℤ

structure AudioSetting where
  modelRatio : String → ℚ
  completionRatio : String → ℚ
  audioRatio : String → ℚ
  audioCompletionRatio : String → ℚ
  group : GroupSetting

structure RealtimeInfo where
  usePrice : Bool
  originModelName : String
  userGroup : String
  usingGroup : String
  autoGroup : Option String

variable (cfg : BillingConfig) (s : AudioSetting) (rt : RealtimeInfo) (info : RelayInfo)

/-- `calculateAudioQuota`, of a model that is not sold at a price. -/
def calculateAudioQuota (modelName : String) (modelRatio groupRatio : ℚ) (usage : RealtimeUsage) :
    ℤ :=
  let ratio := groupRatio * modelRatio
  let quota := (usage.inputText + usage.outputText * s.completionRatio modelName +
    usage.inputAudio * s.audioRatio modelName +
    usage.outputAudio * s.audioRatio modelName * s.audioCompletionRatio modelName) * ratio
  roundHalfAway (if ratio ≠ 0 ∧ quota ≤ 0 then 1 else quota)

def RealtimeInfo.quota (usage : RealtimeUsage) : ℤ :=
  calculateAudioQuota s rt.originModelName (s.modelRatio rt.originModelName)
    (s.group.ratioInfo rt.userGroup (rt.autoGroup.getD rt.usingGroup)).groupRatio usage

/-- A usage event: its reads, its errors, and what others have done to the tables before it. -/
structure WssEvent where
  usage : RealtimeUsage
  userQuota : Except String ℤ
  token : Except String (Bool × ℤ)
  faults : SettleFaults
  others : Db → Db

def preWssConsumeQuota (fields : BillingFields) (e : WssEvent) (db : Db) :
    Db × Except String Unit :=
  if rt.usePrice then (db, .ok ())
  else match e.userQuota with
    | .error err => (db, .error err)
    | .ok userQuota =>
      match e.token with
      | .error err => (db, .error err)
      | .ok (unlimited, remain) =>
        let quota := rt.quota s e.usage
        if userQuota < quota then
          (db, .error ("user quota is not enough, user quota: " ++ cfg.formatQuota userQuota ++
            ", need quota: " ++ cfg.formatQuota quota))
        else if !unlimited && remain < quota then
          (db, .error ("token quota is not enough, token remain quota: " ++
            cfg.formatQuota remain ++ ", need quota: " ++ cfg.formatQuota quota))
        else postConsumeQuota info e.faults fields.billingSource fields.subscriptionId quota db

variable (r : SessionRun) (e : WssEvent)

namespace SessionRun

def preWss : Db × Except String Unit :=
  preWssConsumeQuota cfg s rt info (syncRelayInfo (some r.session)) e (e.others r.db)

def serve : SessionRun := { r with db := e.others r.db }.charge info (r.preWss cfg s rt info e).1

/-- The event is charged, and the others have left the usage of a subscription where it can be. -/
def served : Prop :=
  (e.others r.db).covers 0 r.account = true ∧ (r.preWss cfg s rt info e).2 = .ok ()

/-- `Relay` once the session is open: `WssHelper` fails, or returns after the usage events. -/
def relayRealtime : Option (List WssEvent) → SessionRun
  | none => r.step info .refund
  | some events => run (serve cfg s rt info) r events

end SessionRun

end AggreApi
