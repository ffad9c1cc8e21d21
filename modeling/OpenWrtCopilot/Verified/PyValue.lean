import OpenWrtCopilot.Verified.PyDict
import OpenWrtCopilot.Verified.PyFloat

/-!
# Values of any shape

What `json.loads` returns, as Python code that does not know the shape meets it: an operation that
the value does not have raises.

## Main definitions

* `PyValue.get`, `PyValue.iter`, `PyValue.hashable` — what only some values have.
* `PyValue.or` — the defaults of `a or b`.
-/

namespace OpenWrtCopilot.Verified

open PyText PyDict

inductive PyValue
  | none
  | bool (b : Bool)
  | int (n : Int)
  | float (x : PyFloat)
  | str (t : Text)
  | list (items : List PyValue)
  | dict (entries : List (Text × PyValue))

/-- The exceptions of these operations. -/
inductive PyError
  | attributeError
  | typeError
  | valueError
  | overflowError
  | validationError
  deriving DecidableEq

def PyError.name : PyError → Text
  | .attributeError => "AttributeError"
  | .typeError => "TypeError"
  | .valueError => "ValueError"
  | .overflowError => "OverflowError"
  | .validationError => "ValidationError"

namespace PyValue

/-- `bool(value)`. -/
def truthy : PyValue → Bool
  | .none => false
  | .bool b => b
  | .int n => n ≠ 0
  | .float x => x ≠ .finite 0
  | .str t => t ≠ []
  | .list items => !items.isEmpty
  | .dict entries => !entries.isEmpty

/-- `a or b`. -/
def or (a b : PyValue) : PyValue := if a.truthy then a else b

def isDict : PyValue → Bool
  | .dict _ => true
  | _ => false

/-- `isinstance(value, dict)`, with the entries. -/
def entries? : PyValue → Option (Dict Text PyValue)
  | .dict entries => some entries
  | _ => Option.none

/-- `value.get(key, default)`. -/
def get (value : PyValue) (key : Text) (default : PyValue := .none) : Except PyError PyValue :=
  match value with
  | .dict entries => .ok ((get? key entries).getD default)
  | _ => .error .attributeError

/-- What `for` goes through. -/
def iter : PyValue → Except PyError (List PyValue)
  | .list items => .ok items
  | .str t => .ok (t.map fun c => .str [c])
  | .dict entries => .ok ((keys entries).map .str)
  | _ => .error .typeError

/-- Whether `hash(value)` is there. -/
def hashable : PyValue → Bool
  | .list _ => false
  | .dict _ => false
  | _ => true

@[simp] theorem truthy_none : PyValue.none.truthy = false := rfl

@[simp] theorem or_of_truthy {a : PyValue} (h : a.truthy = true) (b : PyValue) : a.or b = a :=
  if_pos h

@[simp] theorem or_of_not_truthy {a : PyValue} (h : a.truthy = false) (b : PyValue) :
    a.or b = b :=
  if_neg (Bool.eq_false_iff.mp h)

end PyValue

end OpenWrtCopilot.Verified
