import AgentThreads.Binary64.Basic
import AgentThreads.Keyed

/-!
# JSON values

Integers are kept apart from other numbers. An object is the list of its members as they are
written; one that was read has its keys in byte order, each once.
-/

namespace AgentThreads

/-- A JSON value. -/
inductive Json where
  /-- The value `null`. -/
  | null
  /-- A truth value. -/
  | bool (value : Bool)
  /-- An integer. -/
  | int (value : Int)
  /-- A number that is not kept as an integer. -/
  | double (value : Binary64)
  /-- A text. -/
  | string (value : String)
  /-- An array. -/
  | array (items : List Json)
  /-- An object. -/
  | object (members : List (String × Json))
  deriving Inhabited

namespace Json

/-- The value is `null`. -/
def isNull : Json → Bool
  | null => true
  | _ => false

/-- The text of a string. -/
def asString? : Json → Option String
  | string value => some value
  | _ => none

/-- The truth value. -/
def asBool? : Json → Option Bool
  | bool value => some value
  | _ => none

end Json

end AgentThreads
