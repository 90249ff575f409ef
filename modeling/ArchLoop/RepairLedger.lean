import ArchLoop.JournalFile
import ArchLoop.LandingRepair

/-!
# `ArchLoop.RepairLedger`: the two repair loops and the ledger that bounds them

The model of the ledger of `hubLandingRepair.ts` and of the loops that it bounds, in
`verifyWithBoundedRepair` and `runGitMergeInCwd` (`hubBatchMerge.ts`). Before an agent is called, a
line is appended to the ledger of the task's source commit, and the loops count the lines that they
understand. An append is one step for each octet, so a crash may leave any part of the line.

What the agent, the verifier and Git answer in the turns of a loop is part of the run. A call that
throws ends the run like a crash. The numbers in a ledger are whole and without an exponent.
-/

set_option autoImplicit false

namespace ArchLoop.RepairLedger

open ArchLoop.Lib ArchLoop.Lib.JsonText
open ArchLoop.JournalFile (readString)

/-! ### Attempts -/

/-- `HubLandingRepairKind`. -/
inductive HubLandingRepairKind where
  | mergeConflict
  | verification
  deriving DecidableEq, Repr

/-- The text of a kind in the ledger. -/
def HubLandingRepairKind.text : HubLandingRepairKind → String
  | mergeConflict => "merge_conflict"
  | verification => "verification"

/-- The kind that a text names. -/
def kindOf (text : String) : Option HubLandingRepairKind :=
  [.mergeConflict, .verification].find? fun kind => kind.text == text

/-- `HubLandingRepairAttempt`. -/
structure HubLandingRepairAttempt where
  kind : HubLandingRepairKind
  taskId : TaskId
  sourceOid : Oid
  fingerprint : String
  attempt : Int
  createdAt : String
  candidateOid : Option Oid := none
  candidateGeneration : Option Int := none
  deriving DecidableEq

/-- The object that `JSON.stringify` makes of an attempt. -/
def HubLandingRepairAttempt.toJson (attempt : HubLandingRepairAttempt) : Value :=
  .ofFields [
    ("type", some (.string "repair_attempt")),
    ("kind", some (.string attempt.kind.text)),
    ("taskId", some (.string attempt.taskId)),
    ("sourceOid", some (.string attempt.sourceOid)),
    ("fingerprint", some (.string attempt.fingerprint)),
    ("attempt", some (.ofInt attempt.attempt)),
    ("createdAt", some (.string attempt.createdAt)),
    ("candidateOid", attempt.candidateOid.map .string),
    ("candidateGeneration", attempt.candidateGeneration.map .ofInt)]

/-- `parseRepairAttempt`. -/
def parseRepairAttempt (record : Value) : Option HubLandingRepairAttempt := do
  guard ((record.get "type").bind Value.text? = some "repair_attempt")
  let kind ← (readString record "kind").bind kindOf
  let taskId ← readString record "taskId"
  let sourceOid ← readString record "sourceOid"
  let fingerprint ← readString record "fingerprint"
  let createdAt ← readString record "createdAt"
  let attempt ← (record.get "attempt").bind Value.int?
  return {
    kind, taskId, sourceOid, fingerprint, attempt, createdAt
    candidateOid := readString record "candidateOid"
    candidateGeneration := (record.get "candidateGeneration").bind Value.int? }

/-! ### The ledger -/

/-- `resolveHubLandingRepairBudgetPath`: the name of the ledger in its directory. -/
def resolveHubLandingRepairBudgetPath (taskId : TaskId) (sourceOid : Oid) : String :=
  s!"{safeTaskId taskId}-{sourceOid}.jsonl"

/-- `readHubLandingRepairAttempts`. -/
def readHubLandingRepairAttempts (ledger : List UInt8) : List HubLandingRepairAttempt :=
  JsonLines.read parseRepairAttempt ledger

/-- `countRepairAttempts`. -/
def countRepairAttempts (attempts : List HubLandingRepairAttempt) (kind : HubLandingRepairKind)
    (fingerprint : Option String) : Nat :=
  (attempts.filter fun attempt =>
    attempt.kind == kind && fingerprint.all (attempt.fingerprint == ·)).length

/-- `usedAttemptsForKind` of the budget that `loadHubLandingRepairBudget` reads of a ledger. -/
def usedAttemptsForKind (ledger : List UInt8) (kind : HubLandingRepairKind) : Nat :=
  countRepairAttempts (readHubLandingRepairAttempts ledger) kind none

/-- `remainingFromUsed`. -/
def remainingFromUsed (used : Nat) : Nat := HUB_LANDING_REPAIR_BUDGET - used

/-- `remainingHubLandingRepairAttempts`. An empty fingerprint counts as none. -/
def remainingHubLandingRepairAttempts (ledger : List UInt8) (kind : HubLandingRepairKind)
    (fingerprint : Option String) : Nat :=
  let remaining := remainingFromUsed (usedAttemptsForKind ledger kind)
  match fingerprint with
  | none => remaining
  | some fingerprint =>
    if fingerprint = "" then remaining
    else min remaining (remainingFromUsed
      (countRepairAttempts (readHubLandingRepairAttempts ledger) kind (some fingerprint)))

/-- The ledgers by their names, and how often an agent was called for a repair. -/
structure RepairWorld where
  ledgers : String → List UInt8 := fun _ => []
  agentCalls : HubLandingRepairKind → TaskId → Oid → Nat := fun _ _ _ => 0

/-- A program on the ledgers. It fails when the turns that it was given do not suffice. -/
abbrev RepairProg (α : Type) : Type := Prog RepairWorld Unit α

/-- The world with another content of a ledger. -/
def RepairWorld.withLedger (s : RepairWorld) (path : String) (ledger : List UInt8) : RepairWorld :=
  { s with ledgers := Function.update s.ledgers path ledger }

/-- Writes the octets at the end of a ledger. -/
def writeOctets (path : String) : List UInt8 → RepairProg Unit
  | [] => .ret ()
  | octet :: rest =>
    (Prog.modify fun s => s.withLedger path (s.ledgers path ++ [octet])).bind fun _ =>
      writeOctets path rest

/-- What `toISOString` gives. -/
structure IsoText where
  text : String
  ne : trim text ≠ ""

/-- `recordHubLandingRepairAttempt`. -/
def recordHubLandingRepairAttempt (kind : HubLandingRepairKind) (taskId : TaskId)
    (sourceOid : Oid) (fingerprint : String) (candidateOid : Option Oid)
    (candidateGeneration : Option Int) (now : IsoText) : RepairProg Unit := do
  let path := resolveHubLandingRepairBudgetPath taskId sourceOid
  let used ← .reads fun s => usedAttemptsForKind (s.ledgers path) kind
  writeOctets path (JsonLines.lineOf (HubLandingRepairAttempt.toJson {
    kind, taskId, sourceOid, fingerprint, candidateOid, candidateGeneration
    attempt := used + 1
    createdAt := now.text }))

/-- Calls the agent, whose answer is part of the run. -/
def callAgent (kind : HubLandingRepairKind) (taskId : TaskId) (sourceOid : Oid) :
    RepairProg Unit :=
  .modify fun s =>
    { s with
      agentCalls := fun k t o =>
        s.agentCalls k t o + if k = kind ∧ t = taskId ∧ o = sourceOid then 1 else 0 }

/-! ### The loop of `verifyWithBoundedRepair` -/

/-- A task under verification. The landing identity has no source commit when there is no
integration. -/
structure VerifySession where
  taskId : TaskId
  sourceOid : Option Oid
  hasCandidateRepairer : Bool
  hasIntegration : Bool

/-- What happens in a turn.

- `repaired`: the repair was a success.
- `snapshot`: the candidate commit of the snapshot, which keeps the source commit.
- `verified`: the verifier accepts the candidate then. -/
structure VerifyTurn where
  now : IsoText
  repaired : Bool
  snapshot : Option Oid
  verified : Bool

/-- The loop, with the number of turns that are left to it, and the number of turns made. -/
def verifyLoop (session : VerifySession) (turns : Nat → VerifyTurn) :
    Nat → Nat → Option Oid → Bool → RepairProg Bool
  | _, _, _, true => .ret true
  | 0, _, _, false => .raise ()
  | fuel + 1, made, candidateOid, false =>
    match session.sourceOid with
    | none => .ret false
    | some sourceOid => do
      let remaining ← .reads fun s => remainingHubLandingRepairAttempts
        (s.ledgers (resolveHubLandingRepairBudgetPath session.taskId sourceOid)) .verification none
      if sourceOid = "" ∨ remaining = 0 ∨ session.hasCandidateRepairer = false ∨
          session.hasIntegration = false then
        return false
      else
        let turn := turns made
        recordHubLandingRepairAttempt .verification session.taskId sourceOid
          (candidateOid.getD sourceOid) candidateOid (some (made + 2)) turn.now
        callAgent .verification session.taskId sourceOid
        if turn.repaired then
          verifyLoop session turns fuel (made + 1) (turn.snapshot.or candidateOid) turn.verified
        else verifyLoop session turns fuel (made + 1) candidateOid false

/-! ### The loop of `runGitMergeInCwd` -/

/-- What `git merge` ends with. -/
inductive GitMergeOutcome where
  | merged
  | failed
  | conflict
  deriving DecidableEq, Repr

/-- What happens in a turn: the answer of the resolver, and what Git says of the worktree then. -/
structure ConflictTurn where
  now : IsoText
  success : Bool
  remainingConflicts : List String
  mergeStillInProgress : Bool

/-- `computeHubLandingMergeInputFingerprint`. -/
def computeHubLandingMergeInputFingerprint (git : Git) (sourceOid baseOid : Oid) : String :=
  git.sha256 s!"{sourceOid}\x00{baseOid}"

/-- The loop, with the number of turns that are left to it, and the number of turns made. -/
def conflictLoop (taskId : TaskId) (sourceOid : Oid) (fingerprint : String)
    (turns : Nat → ConflictTurn) : Nat → Nat → RepairProg Bool
  | 0, _ => .raise ()
  | fuel + 1, made => do
    let remaining ← .reads fun s => remainingHubLandingRepairAttempts
      (s.ledgers (resolveHubLandingRepairBudgetPath taskId sourceOid)) .mergeConflict
      (some fingerprint)
    if remaining = 0 then
      return false
    else
      let turn := turns made
      recordHubLandingRepairAttempt .mergeConflict taskId sourceOid fingerprint none none turn.now
      callAgent .mergeConflict taskId sourceOid
      if turn.success ∧ turn.remainingConflicts = [] ∧ turn.mergeStillInProgress = false then
        return true
      else conflictLoop taskId sourceOid fingerprint turns fuel (made + 1)

/-! ### Runs -/

/-- A run of one of the two functions, with all that it is told. -/
inductive RepairRun where
  | verifyWithBoundedRepair (session : VerifySession) (candidateOid : Option Oid)
      (verified : Bool) (turns : Nat → VerifyTurn)
  | runGitMergeInCwd (merge : GitMergeOutcome) (taskId : TaskId) (sourceOid baseOid : Oid)
      (turns : Nat → ConflictTurn)

/-- The program of a run, when its loop is given so many turns. -/
def RepairRun.prog (git : Git) (fuel : Nat) : RepairRun → RepairProg Bool
  | verifyWithBoundedRepair session candidateOid verified turns =>
    verifyLoop session turns fuel 0 candidateOid verified
  | runGitMergeInCwd merge taskId sourceOid baseOid turns =>
    match merge with
    | .merged => .ret true
    | .failed => .ret false
    | .conflict =>
      conflictLoop taskId sourceOid
        (computeHubLandingMergeInputFingerprint git sourceOid baseOid) turns fuel 0

/-- What runs leave, one after the other, each of them up to any of its steps. `allowed` says
which runs may start in which world. -/
inductive Repaired (git : Git) (allowed : RepairWorld → RepairRun → Prop) : RepairWorld → Prop where
  | start : Repaired git allowed {}
  | run {s : RepairWorld} (run : RepairRun) (fuel steps : Nat) (h : Repaired git allowed s)
      (ok : allowed s run) : Repaired git allowed ((run.prog git fuel).crashAfter steps s)

end ArchLoop.RepairLedger
