import OpenWrtCopilot.Verified.PyText
import OpenWrtCopilot.Verified.Programs

/-!
# The context of collectors

Ports `CollectorContext.sh`, `UbusClient.call` and `clean_output`, and the part of
`ctx.state` that the snapshot is assembled from.

## Main results

* `exec_sh` — a command through `ctx.sh` never raises.
* `scratch_ubusCall` — a call leaves the scratch state alone.
-/

namespace OpenWrtCopilot.Ports.CollectorContext

open Verified
open Verified.PyText

/-! ## The scratch state -/

/-- A value of the router's JSON where a text or nothing is expected. -/
inductive JsonValue
  | null
  | text (value : Text)
  /-- A number, a boolean, an array or an object. -/
  | other
  deriving DecidableEq

/-- `ctx.state["network_status"]`: the gateway and the interface are passed on as the
router reports them. -/
structure RawStatus where
  gateway : JsonValue
  dns : List Text
  wanInterface : JsonValue

/-- What the collectors leave in `ctx.state` for the assembler. -/
structure Scratch where
  networkStatus : Option RawStatus := none
  wirelessInterfaces : Option (List Text) := none

/-- A field of type `str | None`. -/
def JsonValue.optionalText : JsonValue → Option (Option Text)
  | .null => some none
  | .text value => some (some value)
  | .other => none

/-! ## Commands -/

/-- A program over the commands of a router. -/
abbrev Collecting (α : Type) := Program Scratch Text Text Text α

/-- `ctx.sh`. -/
def sh (command : Text) (default : Text := []) : Collecting Text :=
  .run command fun
    | .ok output => .ret output
    | .error _ => .ret default

/-- `text.replace("\r\n", "\n")`. -/
def unixLines : Text → Text
  | '\r' :: '\n' :: rest => '\n' :: unixLines rest
  | c :: rest => c :: unixLines rest
  | [] => []

/-- `clean_output`. -/
def cleanOutput (output : Text) : Text :=
  ((unixLines output).dropWhile (· = '\n')).rdropWhile (· = '\n')

/-- `ctx.ubus.call` without parameters; `decode` is `json.loads`. -/
def ubusCall {J : Type} (decode : Text → Option J) (object method : Text) : Collecting J :=
  .run ("ubus call ".toList ++ object ++ ' ' :: method) fun
    | .error e => .raise ("ubus call ".toList ++ object ++ '.' :: method ++ " failed: ".toList ++ e)
    | .ok output =>
        let text := cleanOutput output
        if text = [] then
          .raise ("ubus call ".toList ++ object ++ '.' :: method ++ " returned no output".toList)
        else
          match decode text with
          | some value => .ret value
          | none =>
              .raise ("ubus call ".toList ++ object ++ '.' :: method ++
                " returned non-JSON: ".toList ++ text.take 200)

/-! ## What the commands leave -/

variable {D : Type} {answer : Text → D → Except Text Text × D}

/-- `ctx.sh` never raises, and gives its default where the command fails. -/
theorem exec_sh (command default : Text) (m : Program.Machine Scratch Text Text Text D) :
    (sh command default).exec answer m =
      (.ok (((answer command m.device).1.toOption).getD default),
        { m with
          device := (answer command m.device).2
          log := m.log ++ [(command, (answer command m.device).1)] }) := by
  rw [sh, Program.exec]
  dsimp only
  cases (answer command m.device).1 with
  | ok output => rfl
  | error e => rfl

theorem scratch_ubusCall {J : Type} (decode : Text → Option J) (object method : Text)
    (m : Program.Machine Scratch Text Text Text D) :
    ((ubusCall decode object method).exec answer m).2.scratch = m.scratch := by
  rw [ubusCall, Program.exec]
  dsimp only
  split
  · rfl
  · split
    · rfl
    · split <;> rfl

end OpenWrtCopilot.Ports.CollectorContext
