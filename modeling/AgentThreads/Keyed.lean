/-!
# Keyed lists

Values under text keys. The keys stand in increasing order of their UTF-8 bytes, each key once, in
every list that `Keyed.insert` builds from the empty one.
-/

namespace AgentThreads

/-- Values under text keys. -/
abbrev Keyed (α : Type) := List (String × α)

namespace Keyed

variable {α : Type}

/-- The UTF-8 bytes of a key, by which keys are ordered. -/
def keyBytes (key : String) : List UInt8 :=
  key.toByteArray.data.toList

/-- Puts a value under a key, in place of the one that was there. -/
def insert (key : String) (value : α) : Keyed α → Keyed α
  | [] => [(key, value)]
  | (other, kept) :: rest =>
    if key = other then (key, value) :: rest
    else if keyBytes key < keyBytes other then (key, value) :: (other, kept) :: rest
    else (other, kept) :: insert key value rest

/-- The value under a key. -/
def find? (key : String) (list : Keyed α) : Option α :=
  list.lookup key

/-- Takes a key away. -/
def erase (key : String) (list : Keyed α) : Keyed α :=
  list.filter (·.1 != key)

end Keyed

end AgentThreads
