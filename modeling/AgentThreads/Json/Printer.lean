import AgentThreads.Binary64.Shortest
import AgentThreads.Json.Basic

/-!
# Writing JSON

Two layouts of a value: a compact one without blanks, and a pretty one with an item to a line and
two spaces to a level. Members are written in the order in which the object lists them.
-/

namespace AgentThreads

namespace Binary64

/-- The digits of a decimal whose first digit has the weight `10 ^ lead`, written with a point. -/
def positional (ds : List Char) (lead : Int) : List Char :=
  let places := (lead + 1).toNat
  if lead < 0 then '0' :: '.' :: List.replicate (-lead - 1).toNat '0' ++ ds
  else if ds.length ≤ places then ds ++ List.replicate (places - ds.length) '0' ++ ['.', '0']
  else ds.take places ++ '.' :: ds.drop places

/-- The digits of a decimal whose first digit has the weight `10 ^ lead`, written with an exponent. -/
def scientific (ds : List Char) (lead : Int) : List Char :=
  let point := if ds.length ≤ 1 then [] else ['.']
  let sign := if lead < 0 then '-' else '+'
  ds.take 1 ++ point ++ ds.drop 1 ++ 'e' :: sign :: Nat.toDigits 10 lead.natAbs

/-- The number in JSON: its shortest decimal, with an exponent from `10 ^ 16` on and below
`10 ^ -5`. -/
def toChars (x : Binary64) : List Char :=
  let d := x.shortest
  let ds := Nat.toDigits 10 d.digits
  let lead : Int := ds.length - 1 + d.exponent
  let text := if -5 ≤ lead ∧ lead < 16 then positional ds lead else scientific ds lead
  if x.negative then '-' :: text else text

end Binary64

namespace Json

/-- A control character by its number, in four digits of lower case hexadecimal. -/
def escapeByNumber (c : Char) : List Char :=
  '\\' :: 'u' :: (Nat.toDigits 16 c.toNat).leftpad 4 '0'

/-- A character inside a string. -/
def escapeChar (c : Char) : List Char :=
  if c = '"' ∨ c = '\\' then ['\\', c]
  else if c = '\x08' then ['\\', 'b']
  else if c = '\x0c' then ['\\', 'f']
  else if c = '\n' then ['\\', 'n']
  else if c = '\r' then ['\\', 'r']
  else if c = '\t' then ['\\', 't']
  else if c.toNat < 0x20 then escapeByNumber c
  else [c]

/-- A string. -/
def quote (s : String) : List Char :=
  '"' :: s.toList.flatMap escapeChar ++ ['"']

/-- An integer. -/
def intChars : Int → List Char
  | .ofNat n => Nat.toDigits 10 n
  | .negSucc n => '-' :: Nat.toDigits 10 (n + 1)

/-- What both layouts share: the values that hold no other value. -/
def scalarChars : Json → List Char
  | bool true => ['t', 'r', 'u', 'e']
  | bool false => ['f', 'a', 'l', 's', 'e']
  | int value => intChars value
  | double value => value.toChars
  | string value => quote value
  | _ => ['n', 'u', 'l', 'l']

mutual

/-- The compact layout. -/
def compact : Json → List Char
  | array items => '[' :: [','].intercalate (compactItems items) ++ [']']
  | object members => '\x7b' :: [','].intercalate (compactMembers members) ++ ['\x7d']
  | value => scalarChars value

/-- The items of an array, each in the compact layout. -/
def compactItems : List Json → List (List Char)
  | [] => []
  | value :: rest => compact value :: compactItems rest

/-- The members of an object, each in the compact layout. -/
def compactMembers : List (String × Json) → List (List Char)
  | [] => []
  | (key, value) :: rest => (quote key ++ ':' :: compact value) :: compactMembers rest

end

/-- A new line at a level. -/
def newLine (level : Nat) : List Char :=
  '\n' :: List.replicate (2 * level) ' '

/-- The parts of a container, each on a line one level in, between brackets at the level. -/
def block (opener closer : Char) (level : Nat) (parts : List (List Char)) : List Char :=
  if parts.isEmpty then [opener, closer]
  else
    opener :: [','].intercalate (parts.map (newLine (level + 1) ++ ·)) ++ newLine level ++ [closer]

mutual

/-- The pretty layout of a value that begins at a level. -/
def prettyAt : Nat → Json → List Char
  | level, array items => block '[' ']' level (prettyItems (level + 1) items)
  | level, object members => block '\x7b' '\x7d' level (prettyMembers (level + 1) members)
  | _, value => scalarChars value

/-- The items of an array, each in the pretty layout. -/
def prettyItems : Nat → List Json → List (List Char)
  | _, [] => []
  | level, value :: rest => prettyAt level value :: prettyItems level rest

/-- The members of an object, each in the pretty layout. -/
def prettyMembers : Nat → List (String × Json) → List (List Char)
  | _, [] => []
  | level, (key, value) :: rest =>
    (quote key ++ ':' :: ' ' :: prettyAt level value) :: prettyMembers level rest

end

/-- The pretty layout, closed by a line feed. -/
def pretty (value : Json) : List Char :=
  prettyAt 0 value ++ ['\n']

end Json

end AgentThreads
