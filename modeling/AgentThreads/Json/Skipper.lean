import AgentThreads.Json.Reader

/-!
# Skipping JSON

A value that nobody asks for is skipped: its form is checked, but neither how deep it is nor what
its numbers and surrogates stand for. The containers that are open are kept on a stack.
-/

namespace AgentThreads.Json

/-- The two kinds of container. -/
inductive Container where
  /-- An array. -/
  | array
  /-- An object. -/
  | object
  deriving DecidableEq

namespace Container

/-- The character that closes the container. -/
def closer : Container → Char
  | array => ']'
  | object => '\x7d'

/-- The fault of a text that ends inside the container. -/
def endFault : Container → Fault
  | array => .endInArray
  | object => .endInObject

/-- The fault of an item that is followed by something else than a comma or the closer. -/
def separatorFault : Container → Fault
  | array => .noCommaOrBracket
  | object => .noCommaOrBrace

/-- Skips what stands before the value of an item: in an object a key and a colon. -/
def skipKey : Container → List Char → Except Fault (List Char)
  | array, s => .ok s
  | object, s =>
    match skipSpace s with
    | [] => .error .endInObject
    | '"' :: s => do scanColon (← skipString s)
    | _ => .error .keyNotString

end Container

/-- Where skipping stands. -/
inductive Skipping where
  /-- The value is over. -/
  | done (rest : List Char)
  /-- A value begins here, inside the containers given, the innermost first. -/
  | value (opened : List Container) (rest : List Char)

/-- What follows a value inside the containers given. -/
def skipClosers : List Container → List Char → Except Fault Skipping
  | [], s => .ok (.done s)
  | c :: outer, s =>
    match skipSpace s with
    | [] => .error c.endFault
    | x :: s =>
      if x = c.closer then skipClosers outer s
      else if x = ',' then (c.skipKey s).map (.value (c :: outer))
      else .error c.separatorFault

/-- What follows the opening of a container inside the containers given. -/
def skipOpened (c : Container) (outer : List Container) (s : List Char) : Except Fault Skipping :=
  match skipSpace s with
  | [] => .error c.endFault
  | x :: s =>
    if x = c.closer then skipClosers outer s else (c.skipKey (x :: s)).map (.value (c :: outer))

/-- Skips a scalar with all that it closes, or the opening of a container. -/
def skipStart (opened : List Container) (s : List Char) : Except Fault Skipping :=
  match skipSpace s with
  | [] => .error .endInValue
  | c :: s =>
    if c = 'n' then do skipClosers opened (← scanWord ['u', 'l', 'l'] s)
    else if c = 't' then do skipClosers opened (← scanWord ['r', 'u', 'e'] s)
    else if c = 'f' then do skipClosers opened (← scanWord ['a', 'l', 's', 'e'] s)
    else if c = '"' then do skipClosers opened (← skipString s)
    else if c = '[' then skipOpened .array opened s
    else if c = '\x7b' then skipOpened .object opened s
    else if c = '-' ∨ c.isDigit then do
      let (_, s) ← Numeral.scan .badNumber (c :: s)
      skipClosers opened s
    else .error .noValue

/-- Goes on skipping. The number bounds the scalars and openings that are still skipped; the length
of the text is always enough. -/
def skipFrom : Nat → Skipping → Except Fault (List Char)
  | _, .done rest => .ok rest
  | 0, .value _ _ => .error .endInValue
  | bound + 1, .value opened s => do skipFrom bound (← skipStart opened s)

/-- Skips a value. -/
def skipValue (s : List Char) : Except Fault (List Char) :=
  skipFrom (s.length + 1) (.value [] s)

end AgentThreads.Json
