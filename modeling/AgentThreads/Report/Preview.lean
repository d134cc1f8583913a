import AgentThreads.Json.Printer
import AgentThreads.Text.Blank

/-!
# Previews

A content in a few words on one line: its text, or its compact JSON, with single spaces between the
words, cut off with an ellipsis where it is too long.
-/

namespace AgentThreads.Preview

/-- The greatest number of characters of a preview. -/
def limit : Nat := 120

/-- The words of a text with single spaces between them. -/
def normalize (s : List Char) : List Char :=
  [' '].intercalate (Text.words s)

/-- The words of a text in at most so many characters. -/
def truncate (limit : Nat) (s : List Char) : List Char :=
  let line := normalize s
  if line.length ≤ limit then line else line.take (limit - 1) ++ ['…']

/-- The text that a content shows. -/
def contentChars : Json → List Char
  | .null => []
  | .string text => text.toList
  | content => content.compact

/-- The preview of a content. -/
def ofContent (content : Json) : String :=
  String.ofList (truncate limit (contentChars content))

end AgentThreads.Preview
