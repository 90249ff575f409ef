import ArchLoop.Lib.JsonText

/-!
# `ArchLoop.SessionStore`: the sessions of an agent between the host and a sandbox

`transferSession` (`SessionStore.ts`) copies the lines that an agent wrote about its session from
one store to another. An entry that names the directory of the first store names that of the
second one afterwards. `orchestrate` takes a session into the sandbox to resume it, and out of it
at the end.

A store is a map here, with one directory. Where a store has its files is left out. So are entries
that `JSON.stringify` would not print as they stand: names that come twice or are numbers, and
numbers that are written in another way.
-/

set_option autoImplicit false

namespace ArchLoop.Sessions

open ArchLoop.Lib.JsonText

/-- `SessionStore`. -/
structure SessionStore where
  cwd : String
  session : String → Option (List Char)

/-- `writeSession`. -/
def SessionStore.writeSession (store : SessionStore) (id : String) (content : List Char) :
    SessionStore :=
  { store with session := fun other => if other = id then some content else store.session other }

/-- An assignment to a member that an object has. -/
def setMember (entry : Value) (name : String) (value : Value) : Value :=
  match entry with
  | .object members =>
    .object (members.map fun member => if member.1 = name then (member.1, value) else member)
  | _ => entry

/-- The directory of an entry, if it is a text. -/
def cwdOf (entry : Value) : Option String := (entry.get "cwd").bind Value.text?

/-- An entry in the target store. -/
def rewriteEntry (source target : String) (entry : Value) : Value :=
  if cwdOf entry = some source then setMember entry "cwd" (.string target) else entry

/-- A line in the target store. A line without an entry throws, and so does `null`. -/
def rewriteLine (source target : String) (line : List Char) : Option (List Char) :=
  if line = [] then some line
  else
    match parse line with
    | none | some .null => none
    | some entry => some (print (rewriteEntry source target entry))

/-- The text in the target store. -/
def rewriteSession (source target : String) (content : List Char) : Option (List Char) :=
  if content = [] then some []
  else
    ((content.splitOn '\n').mapM (rewriteLine source target)).map fun lines =>
      ['\n'].intercalate lines

/-- `transferSession`, which throws where there is no session, or one that cannot be read. -/
def transferSession (source target : SessionStore) (id : String) : Option SessionStore :=
  (source.session id).bind fun content =>
    (rewriteSession source.cwd target.cwd content).map (target.writeSession id)

end ArchLoop.Sessions
