import OpenWrtCopilot.Ports.ManagementJobStore

/-!
# Package operations

Ports the package mutations and the feed update of the management service with
the caches they drop: a mutation the router reports as done drops the package
inventory, a feed update always drops the list `opkg` searches read.
-/

namespace OpenWrtCopilot.Ports.Management

open Verified
open Verified.PyText

variable {σ : Type}

/-- `RouterManagementService._pkg_mutate`. -/
def pkgMutate (link : RouterLink σ) (m : PackageMutation) (name : Text) :
    ServiceOp σ OperationResult := do
  if !pkgNamePattern name then
    Fallible.raise (.management "Invalid package name.")
  let result ← onRouter (runForManager link (m.command name))
  if result.ok then
    Fallible.modify fun s => { s with packagesCache := none, packagesCacheAt := 0 }
  return m.describe name result

/-- `RouterManagementService.update_feeds`. -/
def updateFeeds (link : RouterLink σ) : ServiceOp σ OperationResult := do
  let result ← onRouter (runForManager link updateFeedsCommand)
  Fallible.modify fun s => { s with opkgListText := [], opkgListAt := 0 }
  return describeFeeds result

/-- The mutations `run_packages_job` dispatches to. -/
def packageMutation (actionName : Text) : Option PackageMutation :=
  if actionName = "install".toList then some packageInstall
  else if actionName = "remove".toList then some packageRemove
  else if actionName = "upgrade".toList then some packageUpgrade
  else if actionName = "reinstall".toList then some packageReinstall
  else none

/-- The operation of `run_packages_job`; a missing name is the empty one. -/
def packagesOperation (link : RouterLink σ) (actionName : Text) (name : Option Text) :
    ServiceOp σ OperationResult :=
  match packageMutation actionName with
  | some m => pkgMutate link m (name.getD [])
  | none =>
      if actionName = "update-feeds".toList then updateFeeds link
      else Fallible.raise (.management ("Unsupported package action: " ++ actionName))

/-! ## How a package operation ends -/

/-- The result of the manager's command decides the result of a mutation. -/
theorem pkgMutate_fst (link : RouterLink σ) (m : PackageMutation) {name : Text}
    (hname : pkgNamePattern name = true) (s : ServiceState σ) :
    (pkgMutate link m name s).1 =
      (runForManager link (m.command name) s.router).1.map (m.describe name) := by
  have hvalid : (!pkgNamePattern name) = false := by rw [hname]; rfl
  simp only [pkgMutate, hvalid, Bool.false_eq_true, if_false]
  cases hrun : runForManager link (m.command name) s.router with
  | mk outcome router =>
    have hop : onRouter (runForManager link (m.command name)) s =
        (outcome, { s with router := router }) := by
      rw [onRouter_apply, hrun]
    cases outcome with
    | error e =>
      rw [Fallible.bind_of_error hop]
      rfl
    | ok result =>
      rw [Fallible.bind_of_ok hop]
      by_cases hok : result.ok = true
      · rw [if_pos hok]
        rfl
      · rw [if_neg hok]
        rfl

theorem pkgMutate_invalid (link : RouterLink σ) (m : PackageMutation) {name : Text}
    (hname : pkgNamePattern name = false) (s : ServiceState σ) :
    pkgMutate link m name s = (.error (.management "Invalid package name."), s) := by
  simp only [pkgMutate, hname, Bool.not_false, if_true]
  rfl

/-- The result of the manager's command is what a feed update reports. -/
theorem updateFeeds_fst (link : RouterLink σ) (s : ServiceState σ) :
    (updateFeeds link s).1 =
      (runForManager link updateFeedsCommand s.router).1.map describeFeeds := by
  cases hrun : runForManager link updateFeedsCommand s.router with
  | mk outcome router =>
    have hop : onRouter (runForManager link updateFeedsCommand) s =
        (outcome, { s with router := router }) := by
      rw [onRouter_apply, hrun]
    cases outcome with
    | error e =>
      rw [updateFeeds, Fallible.bind_of_error hop]
      rfl
    | ok result =>
      rw [updateFeeds, Fallible.bind_of_ok hop]
      rfl

end OpenWrtCopilot.Ports.Management
