import AgentThreads.Json.Numeral
import AgentThreads.Json.Chars

/-!
# Reading JSON

A reader takes the text that is left and gives a value and what is left after it, or the first fault
from the left. Containers are read item by item, each item by a reader that the caller gives, so the
same loops serve values and records with a fixed set of members.
-/

namespace AgentThreads.Json

/-- A blank between the parts of a JSON text. -/
def isSpace (c : Char) : Bool :=
  c == ' ' || c == '\t' || c == '\n' || c == '\r'

/-- The text from its first character that is no blank. -/
def skipSpace (s : List Char) : List Char :=
  s.dropWhile isSpace

/-- The rest of a word whose first letter has been read. -/
def scanWord : List Char → List Char → Except Fault (List Char)
  | [], s => .ok s
  | _ :: _, [] => .error .endInValue
  | w :: ws, c :: s => if c = w then scanWord ws s else .error .wrongWord

/-- How a container goes on. -/
inductive Step where
  /-- It has been closed. -/
  | close (rest : List Char)
  /-- An item begins here; of a member, the key after its opening quotation mark. -/
  | item (rest : List Char)

/-- What follows an opening bracket. -/
def firstItem (s : List Char) : Except Fault Step :=
  match skipSpace s with
  | [] => .error .endInArray
  | ']' :: s => .ok (.close s)
  | s => .ok (.item s)

/-- What follows an item of an array. -/
def nextItem (s : List Char) : Except Fault Step :=
  match skipSpace s with
  | [] => .error .endInArray
  | ']' :: s => .ok (.close s)
  | ',' :: s =>
    match skipSpace s with
    | [] => .error .endInValue
    | ']' :: _ => .error .trailingComma
    | s => .ok (.item s)
  | _ => .error .noCommaOrBracket

/-- What follows an opening brace. -/
def firstMember (s : List Char) : Except Fault Step :=
  match skipSpace s with
  | [] => .error .endInObject
  | '\x7d' :: s => .ok (.close s)
  | '"' :: s => .ok (.item s)
  | _ => .error .keyNotString

/-- What follows a member of an object. -/
def nextMember (s : List Char) : Except Fault Step :=
  match skipSpace s with
  | [] => .error .endInObject
  | '\x7d' :: s => .ok (.close s)
  | ',' :: s =>
    match skipSpace s with
    | [] => .error .endInValue
    | '\x7d' :: _ => .error .trailingComma
    | '"' :: s => .ok (.item s)
    | _ => .error .keyNotString
  | _ => .error .noCommaOrBrace

/-- The colon after a key. -/
def scanColon (s : List Char) : Except Fault (List Char) :=
  match skipSpace s with
  | [] => .error .endInObject
  | ':' :: s => .ok s
  | _ => .error .noColon

section Containers

variable {ε σ α : Type} (fault : Fault → ε)

/-- The items of an array, each read by `item`, after those in `done`, which are in reverse. The
number bounds the items that are still read; the length of the text is always enough. -/
def scanItems (item : List Char → Except ε (α × List Char)) :
    Nat → List α → Step → Except ε (List α × List Char)
  | _, done, .close rest => .ok (done.reverse, rest)
  | 0, _, .item _ => .error (fault .endInValue)
  | bound + 1, done, .item s => do
    let (x, s) ← item s
    scanItems item bound (x :: done) (← (nextItem s).mapError fault)

/-- The members of an object. Each is given to `member`, with what has come of those before it, its
key, and the text after the key. The number is a bound as in `scanItems`. -/
def scanMembers (member : σ → String → List Char → Except ε (σ × List Char)) :
    Nat → σ → Step → Except ε (σ × List Char)
  | _, state, .close rest => .ok (state, rest)
  | 0, _, .item _ => .error (fault .endInValue)
  | bound + 1, state, .item s => do
    let (key, s) ← (scanString s).mapError fault
    let (state, s) ← member state key s
    scanMembers member bound state (← (nextMember s).mapError fault)

end Containers

/-- A value whose arrays and objects are read by the readers given, after their opening bracket. -/
def scanWith (array object : List Char → Except Fault (Json × List Char)) (s : List Char) :
    Except Fault (Json × List Char) :=
  match skipSpace s with
  | [] => .error .endInValue
  | c :: s =>
    if c = 'n' then (scanWord ['u', 'l', 'l'] s).map (.null, ·)
    else if c = 't' then (scanWord ['r', 'u', 'e'] s).map (.bool true, ·)
    else if c = 'f' then (scanWord ['a', 'l', 's', 'e'] s).map (.bool false, ·)
    else if c = '"' then (scanString s).map fun (text, s) => (.string text, s)
    else if c = '[' then array s
    else if c = '\x7b' then object s
    else if c = '-' ∨ c.isDigit then do
      let (x, s) ← Numeral.scan .endInValue (c :: s)
      return (← x.value, s)
    else .error .noValue

/-- An array after its opening bracket. -/
def scanArray (value : List Char → Except Fault (Json × List Char)) (s : List Char) :
    Except Fault (List Json × List Char) := do
  scanItems id value s.length [] (← firstItem s)

/-- An object after its opening brace. Of equal keys the last one counts. -/
def scanObject (value : List Char → Except Fault (Json × List Char)) (s : List Char) :
    Except Fault (Keyed Json × List Char) := do
  let member (members : Keyed Json) (key : String) (s : List Char) := do
    let (v, s) ← value (← scanColon s)
    return (Keyed.insert key v members, s)
  scanMembers id member s.length [] (← firstMember s)

/-- Reads a value in which at most `depth` containers are open at once. -/
def scanValue : (depth : Nat) → List Char → Except Fault (Json × List Char)
  | 0 => scanWith (fun _ => .error .tooDeep) (fun _ => .error .tooDeep)
  | depth + 1 =>
    scanWith (fun s => (scanArray (scanValue depth) s).map fun (items, s) => (.array items, s))
      (fun s => (scanObject (scanValue depth) s).map fun (members, s) => (.object members, s))

/-- Nothing but blanks follows. -/
def scanEnd (s : List Char) : Except Fault Unit :=
  if (skipSpace s).isEmpty then .ok () else .error .trailingCharacters

/-- The number of containers that may be open at once. -/
def maxDepth : Nat := 127

/-- Reads a text that holds one value. -/
def read (s : List Char) : Except Fault Json := do
  let (value, rest) ← scanValue maxDepth s
  scanEnd rest
  return value

end AgentThreads.Json
