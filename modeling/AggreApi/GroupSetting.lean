import AggreApi.TopUpWebhook

/-!
# Group settings

Which groups a user may use, which the automatic choice walks through, and what they cost. The
maps of the settings are lists of their entries, in the order they are walked; ratios are exact.
-/

namespace AggreApi

structure GroupSetting where
  userUsableGroups : List (String × String) := [("default", "默认分组"), ("vip", "vip分组")]
  autoGroups : List String := ["default"]
  groupRatio : List (String × ℚ) := [("default", 1), ("vip", 1), ("svip", 1)]
  groupGroupRatio : List (String × List (String × ℚ)) := [("vip", [("edit_this", 9 / 10)])]
  groupSpecialUsableGroup : List (String × List (String × String)) :=
    [("vip", [("append_1", "vip_special_group_1"), ("-:remove_1", "vip_removed_group_1")])]

/-- `strings.TrimPrefix`. -/
def trimStart (tag s : String) : String :=
  if startsWith tag s then String.ofList (s.toList.drop tag.toList.length) else s

namespace GroupSetting

def applySpecial (groups : List (String × String)) (special : String × String) :
    List (String × String) :=
  if startsWith "-:" special.1 then groups.filter (·.1 ≠ trimStart "-:" special.1)
  else
    let group := if startsWith "+:" special.1 then trimStart "+:" special.1 else special.1
    (group, special.2) :: groups.filter (·.1 ≠ group)

variable (s : GroupSetting)

def getUserUsableGroups (userGroup : String) : List (String × String) :=
  if userGroup = "" then s.userUsableGroups
  else
    let groups := match s.groupSpecialUsableGroup.lookup userGroup with
      | some special => special.foldl applySpecial s.userUsableGroups
      | none => s.userUsableGroups
    if (groups.lookup userGroup).isSome then groups else (userGroup, "用户分组") :: groups

def groupInUserUsableGroups (userGroup group : String) : Bool :=
  ((s.getUserUsableGroups userGroup).lookup group).isSome

def getUserAutoGroup (userGroup : String) : List String :=
  s.autoGroups.filter (s.groupInUserUsableGroups userGroup)

def containsGroupRatio (group : String) : Bool := (s.groupRatio.lookup group).isSome

def getGroupRatio (group : String) : ℚ := (s.groupRatio.lookup group).getD 1

/-- `GetGroupGroupRatio`; `none` for the pair the source answers with -1 and false. -/
def getGroupGroupRatio (userGroup usingGroup : String) : Option ℚ :=
  (s.groupGroupRatio.lookup userGroup).bind fun ratios => ratios.lookup usingGroup

end GroupSetting

end AggreApi
