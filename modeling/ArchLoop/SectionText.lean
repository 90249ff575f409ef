import ArchLoop.Lib.Pattern
import ArchLoop.Lib.Text

/-!
# `ArchLoop.SectionText`: the lines of a section

`wrapText` (`section.ts`) breaks a text into lines for a terminal. Escape sequences take no place
on a line (`visibleLength`, `ansi.ts`), so it goes by the visible length of its words; but a word
that is too long for a line of its own is cut after every so many characters.
-/

set_option autoImplicit false

namespace ArchLoop.SectionText

open ArchLoop.Lib ArchLoop.Lib.Pattern

def escape : Char := '\x1b'

def isParameter (c : Char) : Bool := c.isDigit || c = ';'

/-- `/\x1b\[[0-9;]*[A-Za-z]/`: a sequence at the front of the text. -/
def csi : Matcher Char (List Char)
  | first :: '[' :: text =>
    let parameters := text.takeWhile isParameter
    match text.dropWhile isParameter with
    | final :: _ =>
      if first = escape && final.isAlpha then
        some (first :: '[' :: (parameters ++ [final]), parameters.length + 2)
      else none
    | [] => none
  | _ => none

/-- The number of characters that are no part of a sequence. -/
def visibleLength (text : List Char) : Nat := (replace (fun _ => []) (scan csi text)).length

/-- `split(/(\s+)/)`: the first word, and every later one behind the blanks before it. A word at an
end of the text may be empty. -/
def splitBlanks : List Char → List Char × List (List Char × List Char)
  | [] => ([], [])
  | c :: text =>
    let (word, rest) := splitBlanks text
    if isBlank c then
      match word, rest with
      | [], (blanks, next) :: more => ([], (c :: blanks, next) :: more)
      | word, rest => ([], ([c], word) :: rest)
    else (c :: word, rest)

/-- The words and the blanks between them. -/
def tokens (text : List Char) : List (List Char) :=
  let (word, rest) := splitBlanks text
  word :: rest.flatMap fun (blanks, next) => [blanks, next]

/-- Where the loop is: the lines that are done, the current one, and its visible length. -/
structure WrapState where
  lines : List (List Char) := []
  cur : List Char := []
  curVL : Nat := 0

/-- One character of a word that is cut. -/
def cutStep (max : Nat) (state : WrapState) (ch : Char) : WrapState :=
  if state.curVL + 1 > max then { lines := state.lines ++ [state.cur], cur := [ch], curVL := 1 }
  else { state with cur := state.cur ++ [ch], curVL := state.curVL + 1 }

def addToken (max : Nat) (state : WrapState) (tok : List Char) : WrapState :=
  let tokVL := visibleLength tok
  if state.curVL + tokVL ≤ max then
    { state with cur := state.cur ++ tok, curVL := state.curVL + tokVL }
  else
    let lines :=
      if state.cur.length > 0 then state.lines ++ [state.cur.rdropWhile isBlank] else state.lines
    if tokVL > max then tok.foldl (cutStep max) { lines }
    else if !tok.isEmpty && tok.all isBlank then { lines }
    else { lines, cur := tok, curVL := tokVL }

def wrapText (text : List Char) (width : Nat) : List (List Char) :=
  let max := if width = 0 then 20 else width
  let state := (tokens text).foldl (addToken max) {}
  let lines := if state.cur.length > 0 then state.lines ++ [state.cur] else state.lines
  if lines.isEmpty then [[]] else lines

end ArchLoop.SectionText
