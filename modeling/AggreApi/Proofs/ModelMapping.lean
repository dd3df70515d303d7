import AggreApi.Proofs.ChannelContext
import Mathlib.Logic.Relation

/-!
# Where a model mapping leads

The walk of `ModelMappedHelper` stays on the chain of its start (`followMapping_outcome`). The entry
of a name is unique, so a chain that has an end enters no cycle (`not_entersCycle`).
-/

namespace AggreApi

open Relation

section chain
variable {modelMap : List (String × String)} {originName start : String}

def MapsTo (modelMap : List (String × String)) (name next : String) : Prop :=
  modelMap.lookup name = some next ∧ next ≠ "" ∧ next ≠ name

/-- The chain from `start` ends with a name that has no entry, an empty one or itself. -/
def ChainEnd (modelMap : List (String × String)) (start last : String) : Prop :=
  ReflTransGen (MapsTo modelMap) start last ∧ ∀ next, ¬ MapsTo modelMap last next

/-- The chain comes back to one of its names; as `MapsTo` is irreflexive, by two steps or more. -/
def EntersCycle (modelMap : List (String × String)) (start : String) : Prop :=
  ∃ name, ReflTransGen (MapsTo modelMap) start name ∧ TransGen (MapsTo modelMap) name name

theorem mapsTo_unique {a b c : String} (hb : MapsTo modelMap a b) (hc : MapsTo modelMap a c) :
    b = c :=
  Option.some_injective _ (hb.1.symm.trans hc.1)

theorem cycle_reaches {a b : String} (ha : TransGen (MapsTo modelMap) a a)
    (hab : ReflTransGen (MapsTo modelMap) a b) : TransGen (MapsTo modelMap) b b := by
  induction hab with
  | refl => exact ha
  | tail _ hbc ih =>
    obtain ⟨next, hnext, hback⟩ := TransGen.head'_iff.1 ih
    rw [mapsTo_unique hnext hbc] at hback
    exact TransGen.tail' hback hbc

theorem not_entersCycle {last : String} (h : ChainEnd modelMap start last) :
    ¬ EntersCycle modelMap start := by
  rintro ⟨name, hname, hcycle⟩
  have hlast : TransGen (MapsTo modelMap) last last := by
    rcases ReflTransGen.total_of_right_unique (r := MapsTo modelMap) (fun _ _ _ => mapsTo_unique)
      hname h.1 with hto | hfrom
    · exact cycle_reaches hcycle hto
    · rcases hfrom.cases_head with rfl | ⟨next, hnext, -⟩
      · exact hcycle
      · exact absurd hnext (h.2 next)
  obtain ⟨next, hnext, -⟩ := TransGen.head'_iff.1 hlast
  exact h.2 next hnext

def Redirect.Outcome (modelMap : List (String × String)) (originName start : String) :
    Redirect → Prop
  | .origin => ChainEnd modelMap start originName ∧ modelMap.lookup originName = some originName
      ∧ originName ≠ ""
  | .model name mapped => ChainEnd modelMap start name ∧ (mapped = false → name = start)
      ∧ (mapped = true → name ≠ "" ∧ (name = start → name ≠ originName))
  | .cycle => EntersCycle modelMap start

theorem followMapping_outcome : ∀ (fuel : ℕ) {current : String} {visited : List String}
    {mapped : Bool} {r : Redirect},
    (∀ v ∈ current :: visited, ReflTransGen (MapsTo modelMap) start v
      ∧ ReflTransGen (MapsTo modelMap) v current) →
    (mapped = false → current = start) →
    (mapped = true → current ≠ "" ∧ ∃ next, MapsTo modelMap start next) →
    followMapping modelMap originName fuel current (current :: visited) mapped = some r →
    r.Outcome modelMap originName start
  | 0, _, _, _, _, _, _, _, h => by simp [followMapping] at h
  | fuel + 1, current, visited, mapped, r, hvisited, hfirst, hmapped, h => by
    have hcurrent := (hvisited current List.mem_cons_self).1
    have hstop (hend : ∀ next, ¬ MapsTo modelMap current next) :
        (Redirect.model current mapped).Outcome modelMap originName start := by
      refine ⟨⟨hcurrent, hend⟩, hfirst, fun hm => ⟨(hmapped hm).1, ?_⟩⟩
      rintro rfl
      obtain ⟨-, next, hnext⟩ := hmapped hm
      exact absurd hnext (hend next)
    rw [followMapping] at h
    split at h
    · rename_i hnone
      cases h
      exact hstop fun next hnext => by cases hnone.symm.trans hnext.1
    · rename_i next hnext
      have huniq {y : String} (hy : MapsTo modelMap current y) : y = next :=
        Option.some_injective _ (hy.1.symm.trans hnext)
      split_ifs at h with hempty hin hself horigin
      · cases h
        exact hstop fun y hy => hy.2.1 ((huniq hy).trans hempty)
      · cases h
        subst hself horigin
        exact ⟨⟨hcurrent, fun y hy => hy.2.2 (huniq hy)⟩, hnext, hempty⟩
      · cases h
        subst hself
        exact ⟨⟨hcurrent, fun y hy => hy.2.2 (huniq hy)⟩, by simp,
          fun _ => ⟨hempty, fun _ => horigin⟩⟩
      · cases h
        exact ⟨next, (hvisited next hin).1, .tail' (hvisited next hin).2 ⟨hnext, hempty, hself⟩⟩
      · have hstep : MapsTo modelMap current next :=
          ⟨hnext, hempty, fun heq => hin (heq ▸ List.mem_cons_self)⟩
        refine followMapping_outcome fuel ?_ (by simp) (fun _ => ⟨hempty, ?_⟩) h
        · intro v hv
          rcases List.mem_cons.1 hv with rfl | hv
          · exact ⟨hcurrent.tail hstep, .refl⟩
          · exact ⟨(hvisited v hv).1, (hvisited v hv).2.tail hstep⟩
        · cases mapped with
          | false => exact ⟨next, hfirst rfl ▸ hstep⟩
          | true => exact (hmapped rfl).2

theorem redirect_outcome {r : Redirect} (h : redirect modelMap originName start = some r) :
    r.Outcome modelMap originName start := by
  refine followMapping_outcome _ ?_ (fun _ => rfl) (by simp) h
  intro v hv
  rw [List.mem_singleton.1 hv]
  exact ⟨.refl, .refl⟩

end chain

/-- The mapping that a text gives; none is read from an empty one. -/
def ChannelEnv.mappingOf (env : ChannelEnv) (modelMapping : String) :
    Option (List (String × String)) :=
  if modelMapping = "" ∨ modelMapping = "\x7b\x7d" then some [] else env.unmarshalMap modelMapping

namespace AttemptInfo

def mappingName (info : AttemptInfo) (compact : Bool) : String :=
  if compact then trimSuffix info.originModelName compactModelSuffix else info.originModelName

/-- The model of the request, the origin's after `InitChannelMeta`: `ModelMappedHelper` sets it to
the upstream's at its end. -/
def requestModel (env : ChannelEnv) (compact : Bool) (modelMapping : String)
    (info : AttemptInfo) : String :=
  let r := info.modelMappedHelper env compact modelMapping
  if r.2.isSome ∨ (env.mappingOf modelMapping).bind
      (redirect · info.originModelName (info.mappingName compact)) = some .origin
  then info.originModelName
  else (r.1.channelMeta.getD {}).upstreamModelName

/-- A compact request whose origin has no suffix and is mapped to itself. -/
def SelfMapped (info : AttemptInfo) (modelMap : List (String × String)) : Prop :=
  hasSuffix info.originModelName compactModelSuffix = false ∧ info.originModelName ≠ ""
    ∧ modelMap.lookup info.originModelName = some info.originModelName

/-- What a request has after the helper, `last` being the end of its chain. -/
structure Mapped (info : AttemptInfo) (compact : Bool) (modelMap : List (String × String))
    (last request : String) (r : AttemptInfo × Option String) : Prop where
  noError : r.2 = none
  upstream : (r.1.channelMeta.getD {}).upstreamModelName = last
  requested : request = last
  mapped : compact = false →
    ((r.1.channelMeta.getD {}).isModelMapped = true ↔ last ≠ info.originModelName)
  origin : compact = true →
    (r.1.originModelName = withCompactModelSuffix last ↔ ¬ info.SelfMapped modelMap)

def afterWalk (info : AttemptInfo) (compact : Bool) : Redirect → AttemptInfo × Option String
  | .origin => (info.setUpstream (info.channelMeta.getD {}).upstreamModelName false, none)
  | .model name true =>
    ((info.setUpstream name true).finishMapping compact (info.mappingName compact), none)
  | .model _ false => (info.finishMapping compact (info.mappingName compact), none)
  | .cycle => (info.setUpstream (info.channelMeta.getD {}).upstreamModelName true,
      some "model_mapping_contains_cycle")

variable {env : ChannelEnv} {c : ChannelContext} {info : AttemptInfo} {compact : Bool}
  {modelMap : List (String × String)} {text : String} {walk : Redirect}

section
variable (hmap : env.mappingOf text = some modelMap)
  (hwalk : redirect modelMap info.originModelName (info.mappingName compact) = some walk)
include hmap hwalk

theorem modelMappedHelper_eq :
    info.modelMappedHelper env compact text = info.afterWalk compact walk := by
  unfold ChannelEnv.mappingOf at hmap
  unfold mappingName at hwalk
  simp only [modelMappedHelper]
  by_cases hempty : text = "" ∨ text = "\x7b\x7d"
  · rw [if_pos hempty] at hmap ⊢
    cases hmap
    cases hwalk
    rfl
  · rw [if_neg hempty] at hmap ⊢
    simp only [hmap, hwalk]
    rcases walk with _ | ⟨name, _ | _⟩ | _ <;> rfl

theorem requestModel_eq :
    info.requestModel env compact text =
      if (info.afterWalk compact walk).2.isSome ∨ walk = .origin then info.originModelName
      else ((info.afterWalk compact walk).1.channelMeta.getD {}).upstreamModelName := by
  simp only [requestModel, modelMappedHelper_eq hmap hwalk, hmap, Option.bind_some, hwalk,
    Option.some.injEq]

end

theorem trimSuffix_of_not {name : String} (h : hasSuffix name compactModelSuffix = false) :
    trimSuffix name compactModelSuffix = name := by
  simp [trimSuffix, h]

theorem withCompactModelSuffix_eq_self {name : String} :
    withCompactModelSuffix name = name ↔ hasSuffix name compactModelSuffix = true := by
  unfold withCompactModelSuffix
  split_ifs with h
  · simp [h]
  · refine iff_of_false (fun heq => ?_) h
    have hlen := congrArg String.length heq
    simp [compactModelSuffix] at hlen

theorem walk_of_selfMapped (h : info.SelfMapped modelMap)
    (hwalk : redirect modelMap info.originModelName (info.mappingName compact) = some walk) :
    walk = .origin := by
  obtain ⟨hsuffix, hempty, hself⟩ := h
  have hname : info.mappingName compact = info.originModelName := by
    unfold mappingName
    split_ifs
    · exact trimSuffix_of_not hsuffix
    · rfl
  simpa [redirect, followMapping, hname, hself, hempty, eq_comm] using hwalk

theorem mapped_afterWalk (horigin : c.originalModel = info.originModelName)
    (hwalk : redirect modelMap info.originModelName (info.mappingName compact) = some walk) :
    EntersCycle modelMap (info.mappingName compact) ∧ walk = .cycle ∨
      ∃ last, ChainEnd modelMap (info.mappingName compact) last
        ∧ info.Mapped compact modelMap last
          (if ((info.initChannelMeta env c).afterWalk compact walk).2.isSome ∨ walk = .origin
            then info.originModelName
            else (((info.initChannelMeta env c).afterWalk compact walk).1.channelMeta.getD
              {}).upstreamModelName)
          ((info.initChannelMeta env c).afterWalk compact walk) := by
  have hself := fun h => walk_of_selfMapped h hwalk
  have hout := redirect_outcome hwalk
  rcases walk with _ | ⟨name, _ | _⟩ | _
  · obtain ⟨hend, hlookup, hempty⟩ := hout
    refine .inr ⟨_, hend, rfl, horigin, rfl, fun _ => by simp [afterWalk, setUpstream], fun _ => ?_⟩
    show info.originModelName = _ ↔ _
    rw [eq_comm, withCompactModelSuffix_eq_self]
    simp [SelfMapped, hlookup, hempty]
  · obtain ⟨hend, hstart, -⟩ := hout
    have hstart := hstart rfl
    subst hstart
    cases compact with
    | false => exact .inr ⟨_, hend, rfl, horigin, horigin,
        fun _ => by simp [afterWalk, finishMapping, initChannelMeta, newChannelMeta, mappingName],
        by simp⟩
    | true => exact .inr ⟨_, hend, rfl, rfl, rfl, by simp, fun _ =>
        iff_of_true rfl fun h => by cases hself h⟩
  · obtain ⟨hend, -, hmapped⟩ := hout
    obtain ⟨hempty, hother⟩ := hmapped rfl
    cases compact with
    | false => exact .inr ⟨name, hend, rfl, rfl, rfl,
        fun _ => iff_of_true rfl fun heq => hother heq heq, by simp⟩
    | true =>
      have hfinal : (if true = true ∧ name ≠ "" then name else info.mappingName true) = name :=
        if_pos ⟨rfl, hempty⟩
      refine .inr ⟨name, hend, rfl, hfinal, hfinal, by simp, fun _ => iff_of_true ?_ ?_⟩
      · exact congrArg withCompactModelSuffix hfinal
      · exact fun h => by cases hself h
  · exact .inl ⟨hout, rfl⟩

def sampleMapping (modelMap : List (String × String)) : ChannelEnv :=
  ⟨fun _ => none, fun _ => some modelMap, fun _ => false, [], ""⟩

def sampleContext : ChannelContext := { originalModel := "a", modelMapping := "text" }

end AttemptInfo
end AggreApi
