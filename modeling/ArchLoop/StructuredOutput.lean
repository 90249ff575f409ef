import ArchLoop.Lib.Search
import ArchLoop.Lib.Text

/-!
# `ArchLoop.StructuredOutput`: the tagged output of an agent

The model of `findLastTagContent` and of `extractString` in `extractStructuredOutput.ts`. The loop
has no bound in the source. Here it is given a number of turns, and `none` says that these were too
few.
-/

set_option autoImplicit false

namespace ArchLoop.StructuredOutput

open ArchLoop.Lib ArchLoop.Lib.Search

/-- `text.indexOf(pattern, start)`. -/
def indexOf (pattern text : List Char) (start : Nat) : Option Nat :=
  (cut pattern (text.drop start)).map fun found => start + found.1.length

/-- `text.slice(start, end)`. -/
def slice (text : List Char) (start stop : Nat) : List Char :=
  (text.drop start).take (stop - start)

/-- The loop of `findLastTagContent`. -/
def lastTagContent (openTag closeTag text : List Char) :
    Nat → Nat → Option (List Char) → Option (Option (List Char))
  | 0, _, _ => none
  | turns + 1, searchFrom, lastContent =>
    match indexOf openTag text searchFrom with
    | none => some lastContent
    | some openIdx =>
      let contentStart := openIdx + openTag.length
      match indexOf closeTag text contentStart with
      | none => some lastContent
      | some closeIdx =>
        lastTagContent openTag closeTag text turns (closeIdx + closeTag.length)
          (some (slice text contentStart closeIdx))

/-- `findLastTagContent`, in so many turns. -/
def findLastTagContent (turns : Nat) (text tag : String) : Option (Option String) :=
  (lastTagContent ("<" ++ tag ++ ">").toList ("</" ++ tag ++ ">").toList text.toList turns 0
    none).map fun content => content.map String.ofList

/-- `extractString`, with the message of its error. -/
def extractString (turns : Nat) (stdout tag : String) : Option (Except String String) :=
  (findLastTagContent turns stdout tag).map fun
    | none => .error ("Structured output tag <" ++ tag ++ "> not found in agent output")
    | some raw => .ok (trim raw)

end ArchLoop.StructuredOutput
