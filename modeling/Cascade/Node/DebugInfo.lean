import Cascade.Text.Case

/-!
# Line numbers in the output

Where a rule comes from can be written into the output, as a comment or as a media query
that browser tools understand.
-/

namespace Cascade

/-- Which form of line numbers is written. -/
inductive DumpMode where
  | comments
  | mediaQuery
  | all
deriving DecidableEq, Repr

/-- The line and the file that a rule comes from. -/
structure DebugInfo where
  line : Int
  file : String
deriving DecidableEq, Repr

namespace DebugInfo

/-- The text of a line number. -/
def lineText (info : DebugInfo) : String :=
  match info.line with
  | .ofNat n => toString n
  | .negSucc n => "-" ++ toString (n + 1)

/-- The line number as a comment. -/
def comment (info : DebugInfo) : String :=
  "/* line " ++ info.lineText ++ ", " ++ info.file ++ " */\n"

/-- Letters of a protocol name, up to case folding, under which the long s and the kelvin
sign count as letters. -/
def isProtocolLetter (c : Char) : Bool :=
  ('a' ≤ c && c ≤ 'z') || ('A' ≤ c && c ≤ 'Z') || c == '\u017f' || c == '\u212a'

/-- Whether a file name begins with a protocol. -/
def hasProtocol (file : String) : Bool :=
  let cs := file.toList
  !(cs.takeWhile isProtocolLetter).isEmpty &&
    "://".toList.isPrefixOf (cs.dropWhile isProtocolLetter)

/-- Points, colons and slashes are escaped by a backslash; a backslash becomes an escaped
slash. -/
def escapeChar (c : Char) : List Char :=
  if c = '.' ∨ c = ':' ∨ c = '/' then ['\\', c]
  else if c = '\\' then ['\\', '/']
  else [c]

/-- The line number as a media query. -/
def mediaQuery (info : DebugInfo) : String :=
  let file := if hasProtocol info.file then info.file else "file://" ++ info.file
  "@media -sass-debug-info\x7bfilename\x7bfont-family:" ++
    String.ofList (file.toList.flatMap escapeChar) ++
    "\x7dline\x7bfont-family:\\00003" ++ info.lineText ++ "\x7d\x7d\n"

/-- The line number in the form asked for; none in compressed output. -/
def text (compress : Bool) (mode : Option DumpMode) (info : DebugInfo) (separator : String) :
    String :=
  if compress then ""
  else
    match mode with
    | none => ""
    | some .comments => info.comment
    | some .mediaQuery => info.mediaQuery
    | some .all => info.comment ++ separator ++ info.mediaQuery

end DebugInfo

end Cascade
