import ArchLoop.Landing

/-!
# `ArchLoop.LandingRepair`: the repair budget, and which errors are worth a retry

The model of `hubLandingRepair.ts`. Each repair attempt of a task's source commit is a line
of a ledger, and a landing repairs its candidate at most `HUB_LANDING_REPAIR_BUDGET` times.
Of the two kinds of repair, `verification` is in the world; the attempts on merge conflicts
belong to the merge, which is a parameter of the batch merge.
-/

set_option autoImplicit false

namespace ArchLoop

open ArchLoop.Lib

/-- `HUB_LANDING_REPAIR_BUDGET`. -/
def HUB_LANDING_REPAIR_BUDGET : Nat := 2

/-- `remainingHubLandingRepairAttempts` of the kind `verification`. -/
def remainingVerificationRepairs (taskId : TaskId) (sourceOid : Oid) : Hub Nat :=
  .reads fun s => HUB_LANDING_REPAIR_BUDGET - s.verificationRepairs taskId sourceOid

/-- `recordHubLandingRepairAttempt` of the kind `verification`. -/
def recordVerificationRepair (taskId : TaskId) (sourceOid : Oid) : Hub Unit :=
  .modify fun s =>
    { s with
      verificationRepairs := fun t o =>
        s.verificationRepairs t o + if t = taskId ∧ o = sourceOid then 1 else 0 }

/-! ### Transient errors -/

/-- What follows each occurrence of the pattern. -/
def textAfter (pattern text : List Char) : List (List Char) :=
  text.tails.filterMap fun tail =>
    if pattern.isPrefixOf tail then some (tail.drop pattern.length) else none

/-- `\w` of a regular expression. -/
def isWordChar (c : Char) : Bool :=
  c.isAlphanum || c == '_'

/-- `\b` before what follows a word. -/
def endsWord (rest : List Char) : Bool :=
  !rest.head?.any isWordChar

/-- The regular expression `first.*second` with a test of what follows: both on one line. -/
def includesInLine (first second : String) (follows : List Char → Bool) (text : List Char) :
    Bool :=
  (textAfter first.toList text).any fun rest =>
    (textAfter second.toList (rest.takeWhile (· != '\n'))).any follows

/-- The regular expression `\bword\b`. The flag says whether a word character comes before. -/
def includesWord (word : List Char) : Bool → List Char → Bool
  | _, [] => false
  | inWord, c :: cs =>
    (!inWord && word.isPrefixOf (c :: cs) && endsWord ((c :: cs).drop word.length)) ||
      includesWord word (isWordChar c) cs

/-- `TRANSIENT_ERROR_PATTERN`. -/
def transientErrorPattern (message : String) : Bool :=
  let text := message.toLower
  ["index.lock", "cannot lock ref", "resource temporarily unavailable", "eagain", "ebusy",
    "enospc", "input/output error", "etxtbsy", "emfile", "enfile", "publish target drifted",
    "cas failed", "pending contention", "stale hub landing owner",
    "landing lease"].any (textIncludes text) ||
  includesInLine "/" ".lock" endsWord text.toList ||
  includesInLine "unable to create" "lock" (fun _ => true) text.toList ||
  includesWord "eio".toList false text.toList

/-- `isTransientHubLandingError`. An error of the model carries its message and no code. -/
def isTransientHubLandingError : HubError → Bool
  | .pending _ _ _ => true
  | e => transientErrorPattern e.message

end ArchLoop
