import OpenWrtCopilot.Verified.PyText

/-!
# The router action guard

Ports `RouterActionGuard.evaluate`, the declarative classification of router
actions by name.
-/

namespace OpenWrtCopilot.Ports.ActionGuard

open Verified.PyText

inductive Decision
  | allow
  | requireConfirmation
  | deny
  deriving DecidableEq

inductive Risk
  | low
  | medium
  | high
  | critical
  deriving DecidableEq

/-- Potentially disruptive actions: allowed only with explicit confirmation. -/
def disruptiveActions : List Text :=
  ["reboot", "restart service", "reload firewall", "restart network", "wifi disable",
    "interface down"].map String.toList

/-- Dangerous actions: always denied, never executed. -/
def dangerousActions : List Text :=
  ["factory reset", "firmware upgrade", "package removal", "delete configuration",
    "filesystem erase"].map String.toList

structure ActionDecision where
  decision : Decision
  risk : Risk
  reason : Text
  confirmationRequired : Bool
  actionName : Text
  deriving DecidableEq

/-- `RouterActionGuard.evaluate`. -/
def evaluate (actionName : Text) : ActionDecision :=
  if actionName ∈ dangerousActions then
    { decision := .deny
      risk := .critical
      reason := "Action '" ++ actionName ++ "' is dangerous and is always denied."
      confirmationRequired := false
      actionName := actionName }
  else if actionName ∈ disruptiveActions then
    { decision := .requireConfirmation
      risk := .high
      reason := "Action '" ++ actionName ++
        "' is potentially disruptive and requires confirmation."
      confirmationRequired := true
      actionName := actionName }
  else
    { decision := .allow
      risk := .low
      reason := "Action '" ++ actionName ++ "' is read-only and always allowed."
      confirmationRequired := false
      actionName := actionName }

/-- The guard denies exactly the dangerous actions. -/
theorem evaluate_deny_iff (actionName : Text) :
    (evaluate actionName).decision = .deny ↔ actionName ∈ dangerousActions := by
  unfold evaluate
  split
  · simp_all
  · split <;> simp_all

end OpenWrtCopilot.Ports.ActionGuard
