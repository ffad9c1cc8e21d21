import Mathlib.Logic.Function.Basic

/-!
# Trust on first use

Endpoints present keys.  The first key of an endpoint is accepted and pinned;
after that the endpoint's pin decides.  Nothing unpins.
-/

namespace OpenWrtCopilot.Verified.FirstUse

variable {κ α : Type} [DecidableEq κ]

/-! ## Pins -/

/-- The pinned key of each endpoint. -/
abbrev Pins (κ α : Type) := κ → Option α

/-- The pins after a key was presented. -/
def present (pins : Pins κ α) (endpoint : κ) (key : α) : Pins κ α :=
  match pins endpoint with
  | none => Function.update pins endpoint (some key)
  | some _ => pins

theorem present_of_some {pins : Pins κ α} {endpoint : κ} {pinned : α}
    (h : pins endpoint = some pinned) (key : α) : present pins endpoint key = pins := by
  rw [present, h]

theorem present_of_none {pins : Pins κ α} {endpoint : κ} (h : pins endpoint = none) (key : α) :
    present pins endpoint key = Function.update pins endpoint (some key) := by
  rw [present, h]

/-! ## Decisions -/

variable [DecidableEq α]

/-- Whether a presented key is accepted. -/
def accepts (pins : Pins κ α) (endpoint : κ) (key : α) : Bool :=
  match pins endpoint with
  | none => true
  | some pinned => key = pinned

end OpenWrtCopilot.Verified.FirstUse
