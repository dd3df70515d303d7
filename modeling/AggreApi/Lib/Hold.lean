import AggreApi.Lib.Run

/-!
# Holds

An amount is held before it is known, and then either captured at what it turned out to be, or
released; both may fail and be tried again. `net` is what the holder has paid at each point.
-/

namespace AggreApi

/-- Where a hold stands: nothing committed, captured at an amount, released but not yet returned,
returned. -/
inductive Hold (α : Type*)
  | held
  | captured (a : α)
  | releasing
  | released
  deriving DecidableEq, Repr

namespace Hold

variable {α : Type*}

/-- What can happen to a hold, with how it went: `due` says whether there is anything to
release. -/
inductive Event (α : Type*)
  | capture (a : α) (ok : Bool)
  | release (due : Bool)
  | returned (ok : Bool)
  | other
  deriving DecidableEq, Repr

def step : Hold α → Event α → Hold α
  | .held, .capture a true => .captured a
  | .held, .release true => .releasing
  | .releasing, .returned true => .released
  | h, _ => h

/-- What has been paid where `p` was held. -/
def net [Zero α] (p : α) : Hold α → α
  | .held => p
  | .captured a => a
  | .releasing => p
  | .released => 0

def isFinal : Hold α → Bool
  | .captured _ => true
  | .released => true
  | _ => false

theorem step_of_isFinal {h : Hold α} (hf : h.isFinal = true) (e : Event α) : h.step e = h := by
  cases h with
  | captured a => cases e <;> rfl
  | released => cases e <;> rfl
  | held => exact absurd hf Bool.false_ne_true
  | releasing => exact absurd hf Bool.false_ne_true

@[simp] theorem step_capture_false (h : Hold α) (a : α) : h.step (.capture a false) = h := by
  cases h <;> rfl

@[simp] theorem step_release_false (h : Hold α) : h.step (.release false) = h := by
  cases h <;> rfl

@[simp] theorem step_returned_false (h : Hold α) : h.step (.returned false) = h := by
  cases h <;> rfl

@[simp] theorem step_other (h : Hold α) : h.step .other = h := by cases h <;> rfl

end Hold

end AggreApi
