/-!
# Faults of JSON texts

What can be wrong with a text that should hold JSON, and how it is said.
-/

namespace AgentThreads.Json

/-- Why a text is not JSON, or not JSON within the limits. -/
inductive Fault where
  /-- The text ends where a value should begin or go on. -/
  | endInValue
  /-- The text ends inside a string. -/
  | endInString
  /-- The text ends inside an array. -/
  | endInArray
  /-- The text ends inside an object. -/
  | endInObject
  /-- No value begins with this character. -/
  | noValue
  /-- A word that begins like `null`, `true` or `false` is another one. -/
  | wrongWord
  /-- A key has no colon after it. -/
  | noColon
  /-- A member has neither a comma nor the closing brace after it. -/
  | noCommaOrBrace
  /-- An item has neither a comma nor the closing bracket after it. -/
  | noCommaOrBracket
  /-- A key is not a string. -/
  | keyNotString
  /-- The last item or member has a comma after it. -/
  | trailingComma
  /-- Something follows the value. -/
  | trailingCharacters
  /-- A number is not written as JSON asks. -/
  | badNumber
  /-- A number is too great. -/
  | numberTooGreat
  /-- A backslash is followed by something that it does not escape. -/
  | badEscape
  /-- A surrogate has no partner. -/
  | loneSurrogate
  /-- A high surrogate has no escape after it. -/
  | unpairedEscape
  /-- A control character stands in a string. -/
  | controlCharacter
  /-- Too many arrays and objects are open. -/
  | tooDeep
  deriving DecidableEq

/-- The fault in words. -/
def Fault.message : Fault → String
  | endInValue => "EOF while parsing a value"
  | endInString => "EOF while parsing a string"
  | endInArray => "EOF while parsing a list"
  | endInObject => "EOF while parsing an object"
  | noValue => "expected value"
  | wrongWord => "expected ident"
  | noColon => "expected `:`"
  | noCommaOrBrace => "expected `,` or `\x7d`"
  | noCommaOrBracket => "expected `,` or `]`"
  | keyNotString => "key must be a string"
  | trailingComma => "trailing comma"
  | trailingCharacters => "trailing characters"
  | badNumber => "invalid number"
  | numberTooGreat => "number out of range"
  | badEscape => "invalid escape"
  | loneSurrogate => "lone leading surrogate in hex escape"
  | unpairedEscape => "unexpected end of hex escape"
  | controlCharacter => "control character (\\u0000-\\u001F) found while parsing a string"
  | tooDeep => "recursion limit exceeded"

end AgentThreads.Json
