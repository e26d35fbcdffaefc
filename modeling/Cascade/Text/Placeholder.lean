import Cascade.Text.Word

/-!
# Placeholders in quoted text

A placeholder is an at sign followed by a name in braces; names are made of word
characters and dashes.  `Piece.scan` cuts a text into plain characters and placeholders,
reading from the left, in one pass over the characters.
-/

namespace Cascade.Text

/-- One piece of a text: a plain character, or a placeholder for a named value. -/
inductive Piece where
  | plain (c : Char)
  | placeholder (name : String)
deriving DecidableEq, Repr

namespace Piece

/-- How much of a placeholder has been read. -/
inductive Pending where
  | nothing
  | at
  /-- The opening brace and the characters of the name, last one first. -/
  | name (reversed : List Char)
deriving DecidableEq, Repr

/-- Whether a character may stand in the name of a placeholder. -/
def isNameChar (c : Char) : Bool :=
  c == '-' || isWord c

/-- The characters read so far, as plain text. -/
def Pending.flush : Pending → List Piece
  | .nothing => []
  | .at => [.plain '@']
  | .name reversed => .plain '@' :: .plain '\x7b' :: reversed.reverse.map .plain

/-- Reads on with a character that does not continue what is pending. -/
def Pending.restart (c : Char) : Pending × List Piece :=
  if c = '@' then (.at, []) else (.nothing, [.plain c])

/-- Reads one character: the new pending part and the pieces that are complete. -/
def Pending.step (pending : Pending) (c : Char) : Pending × List Piece :=
  match pending with
  | .nothing => restart c
  | .at =>
    if c = '\x7b' then (.name [], [])
    else
      let (next, pieces) := restart c
      (next, Pending.at.flush ++ pieces)
  | .name reversed =>
    if isNameChar c then (.name (c :: reversed), [])
    else if c = '\x7d' ∧ reversed ≠ [] then
      (.nothing, [.placeholder (String.ofList reversed.reverse)])
    else
      let (next, pieces) := restart c
      (next, (Pending.name reversed).flush ++ pieces)

/-- The pieces of a text of which `pending` has been read already. -/
def scan (pending : Pending) : List Char → List Piece
  | [] => pending.flush
  | c :: rest =>
    let (next, pieces) := pending.step c
    pieces ++ scan next rest

/-- The names of the placeholders among some pieces, in order. -/
def names (pieces : List Piece) : List String :=
  pieces.filterMap fun
    | .plain _ => none
    | .placeholder name => some name

/-- Puts texts in the places of the placeholders, in order. -/
def fill : List Piece → List String → List Char
  | [], _ => []
  | .plain c :: pieces, texts => c :: fill pieces texts
  | .placeholder _ :: pieces, [] => fill pieces []
  | .placeholder _ :: pieces, text :: texts => text.toList ++ fill pieces texts

end Piece

/-- The pieces of a text. -/
def pieces (s : String) : List Piece :=
  Piece.scan .nothing s.toList

end Cascade.Text
