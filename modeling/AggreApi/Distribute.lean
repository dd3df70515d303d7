import AggreApi.RelayRetry

/-!
# Distribute

How a request gets its first channel: the one an affinity rule prefers, one selected in the using
group, or, for subscribers whose plan allows it, one of the default group.
-/

namespace AggreApi

inductive RelayEntry where
  | token (userGroup tokenGroup : String) (crossGroupRetry : Bool)
  | playground (sessionGroup requested cachedGroup : String)
  deriving DecidableEq, Repr

namespace RelayEntry

def usingGroup : RelayEntry → String
  | token userGroup tokenGroup _ => if tokenGroup = "" then userGroup else tokenGroup
  | playground sessionGroup requested _ => if requested = "" then sessionGroup else requested

/-- The user group in the context while `Distribute` runs. -/
def distributeUserGroup : RelayEntry → String
  | token userGroup _ _ => userGroup
  | playground sessionGroup _ _ => sessionGroup

/-- The user group in the context while `Relay` runs. -/
def relayUserGroup : RelayEntry → String
  | token userGroup _ _ => userGroup
  | playground _ _ cachedGroup => cachedGroup

def crossGroupRetry : RelayEntry → Bool
  | token _ _ crossGroupRetry => crossGroupRetry
  | playground _ _ _ => false

/-- `RelayInfo.TokenGroup`; a playground request has a temporary token of its using group. -/
def relayTokenGroup : RelayEntry → String
  | token userGroup tokenGroup _ => if tokenGroup = "" then userGroup else tokenGroup
  | playground sessionGroup requested cachedGroup =>
    if (playground sessionGroup requested cachedGroup).usingGroup = "" then cachedGroup
    else (playground sessionGroup requested cachedGroup).usingGroup

def groupAllowed (s : GroupSetting) : RelayEntry → Bool
  | token _ _ _ => true
  | playground sessionGroup requested _ =>
    requested = "" || s.groupInUserUsableGroups sessionGroup requested || requested = sessionGroup

end RelayEntry

structure Affinity where
  preferred : Option Channel := none
  skipRetry : Bool := false

def ChannelStore.isChannelEnabledForGroupModel (s : ChannelStore) (group model : String)
    (id : ℕ) : Bool :=
  let listed := fun model => if !s.memoryCacheEnabled then
      s.abilities.any fun a => a.group = group ∧ a.model = model ∧ a.channelId = id ∧ a.enabled
    else (s.group2model2channels group model).contains id
  let normalized := formatMatchingModelName model
  if group = "" ∨ model = "" ∨ id = 0 then false
  else listed model || (normalized ≠ "" && normalized ≠ model && listed normalized)

/-- `tryWalletFallback`, for a user whose subscriptions allow the fallback or not. -/
def tryWalletFallback (usingGroup : String) (enabled : Bool) : Bool :=
  if usingGroup.toList.map Char.toLower = "default".toList then false else enabled

structure Distributed where
  ctx : SelectContext
  attempt : Attempt
  forceWalletBilling : Bool

namespace SelectEnv

variable (env : SelectEnv)

/-- The preferred channel; the inner `none` is a selection left to make, the outer one a refusal. -/
def affinitySelect (ctx : SelectContext) (usingGroup modelName : String) (affinity : Affinity) :
    Option (Option (SelectContext × Attempt)) :=
  match affinity.preferred with
  | none => some none
  | some ch =>
    if ch.status ≠ .enabled then if affinity.skipRetry then none else some none
    else if usingGroup = "auto" then
      match (env.setting.getUserAutoGroup ctx.userGroup).find?
          fun g => env.store.isChannelEnabledForGroupModel g modelName ch.id with
      | some g => some (some ({ ctx with autoGroup := some g }, ⟨g, ch⟩))
      | none => some none
    else if env.store.isChannelEnabledForGroupModel usingGroup modelName ch.id then
      some (some (ctx, ⟨usingGroup, ch⟩))
    else some none

def distributeContext (entry : RelayEntry) (affinity : Affinity) : SelectContext :=
  { userGroup := entry.distributeUserGroup
    crossGroupRetry := entry.crossGroupRetry
    affinitySkip := affinity.skipRetry }

def ownSelect (entry : RelayEntry) (modelName : String) (affinity : Affinity)
    (draw : ℕ) : Selection :=
  env.cacheGetRandomSatisfiedChannel (distributeContext entry affinity)
    { tokenGroup := entry.usingGroup, modelName } draw

/-- `Distribute`; `none` where the request is refused. -/
def distribute (entry : RelayEntry) (modelName : String) (affinity : Affinity) (fallback : Bool)
    (draw fallbackDraw : ℕ) : Option Distributed :=
  if modelName = "" then none
  else if !entry.groupAllowed env.setting then none
  else
    match env.affinitySelect (distributeContext entry affinity) entry.usingGroup modelName
        affinity with
    | none => none
    | some (some (ctx, a)) => some ⟨ctx, a, false⟩
    | some none =>
      let sel := env.ownSelect entry modelName affinity draw
      match sel.err, sel.channel with
      | none, some ch => some ⟨sel.ctx, ⟨sel.selectGroup, ch⟩, false⟩
      | _, _ =>
        if tryWalletFallback entry.usingGroup fallback then
          let fb := env.cacheGetRandomSatisfiedChannel sel.ctx
            { tokenGroup := "default", modelName } fallbackDraw
          match fb.err, fb.channel with
          | none, some ch => some ⟨fb.ctx, ⟨fb.selectGroup, ch⟩, true⟩
          | _, _ => none
        else none

def relayEnter (entry : RelayEntry) (modelName : String) (d : Distributed) : RelayLoop :=
  let ctx := { d.ctx with
    userGroup := entry.relayUserGroup, crossGroupRetry := entry.crossGroupRetry }
  { ctx
    param := { tokenGroup := entry.relayTokenGroup, modelName }
    info := handleGroupRatio env.setting ctx
      { userGroup := entry.relayUserGroup, usingGroup := entry.usingGroup }
    current := some d.attempt }

def relayPassAt (ranges : List (ℤ × ℤ)) (l : RelayLoop) (e : ChannelStore × Try) : RelayLoop :=
  { env with store := e.1 }.relayPass ranges l e.2

end SelectEnv

end AggreApi
