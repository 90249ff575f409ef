import ArchLoop.Landing
import ArchLoop.Lib.Text

/-!
# `ArchLoop.LegacyHistory`: tasks that were merged before landing transactions existed

The model of `hubLandingLegacyHistory.ts`. `classifyHubLegacyLandingHistory` looks at each
task that no transaction names. A task with a merge event whose branch is contained in a
target is `ancestryContained`, and `adoptContainedTask` turns it into a transaction: journal
records first, then the manifest and the candidate ref, a verification artifact, and the
close.

An adopted transaction never gets a landing receipt.
-/

set_option autoImplicit false

namespace ArchLoop

open ArchLoop.Lib

/-- `HUB_LEGACY_LANDING_INTEGRITY`: the prefix of the incidents of rejected tasks. -/
def HUB_LEGACY_LANDING_INTEGRITY : String := "legacy_landing_integrity"

/-- `inspectAction`. -/
def inspectAction : String :=
  "Inspect the task branch, configured target, and historical events. Do not close or reimplement the task automatically."

/-! ### Tasks and events -/

/-- `HUB_TASK_STATUSES`. -/
inductive HubTaskStatus where
  | inbox
  | needsInfo
  | readyForAgent
  | readyForHuman
  | blocked
  | implementing
  | reviewing
  | waitingForMerge
  | merging
  | publishing
  | done
  | wontfix
  | failed
  | syncConflict
  deriving DecidableEq, Repr

/-- `isCompletedHubStatus`. -/
def isCompletedHubStatus : HubTaskStatus → Bool
  | .done | .wontfix => true
  | _ => false

/-- `HubLegacyLandingTask`. Of the metadata only `done` is read. -/
structure HubLegacyLandingTask where
  id : TaskId
  title : String := ""
  hubStatus : HubTaskStatus
  done : Bool := false
  deriving DecidableEq, Repr

/-- The types of a task event that the classification tells apart. -/
inductive HubTaskEventType where
  | mergeStarted
  | mergeSucceeded
  | other
  deriving DecidableEq, Repr

/-- A line of the task event log. -/
structure HubTaskEvent where
  type : HubTaskEventType
  taskId : TaskId
  branch : String
  createdAt : Timestamp
  deriving DecidableEq, Repr

/-- Removes leading and trailing dashes. -/
def trimDashes (cs : List Char) : List Char :=
  ((cs.dropWhile (· == '-')).reverse.dropWhile (· == '-')).reverse

/-- The lower-case letters, as far as they can be kept in a name: of the letters outside ASCII the
Kelvin sign and the dotted capital I have an ASCII letter in their lower case. -/
def lowerChars (c : Char) : List Char :=
  if c.toNat = 0x212a then ['k']
  else if c.toNat = 0x130 then ['i', Char.ofNat 0x307]
  else [c.toLower]

/-- The lower-case text with each run of other characters than the given ones as one dash. -/
def slugChars (keep : Char → Bool) (text : String) : List Char :=
  trimDashes (replaceUnsafeRuns keep false ((trim text).toList.flatMap lowerChars))

/-- `[a-z0-9]`. -/
def isSlugChar (c : Char) : Bool :=
  c.isLower || c.isDigit

/-- `slugifyHubTaskTitle`. -/
def slugifyHubTaskTitle (title : String) : String :=
  match slugChars isSlugChar title with
  | [] => "task"
  | slug => String.ofList (slug.take 48)

/-- `resolveHubTaskBranch`. -/
def resolveHubTaskBranch (taskId : TaskId) (title : String) : String :=
  let normalizedId := slugChars (fun c => isSlugChar c || c == '.' || c == '_' || c == '-') taskId
  s!"archloop/{String.ofList normalizedId}-{slugifyHubTaskTitle title}"

/-- The fold of `collectLegacyMergeEvidence` over one event of the task: the later merge
event, where a `merge_succeeded` wins over an earlier one of the same time. -/
def laterMergeEvent (latest : Option HubTaskEvent) (event : HubTaskEvent) :
    Option HubTaskEvent :=
  if event.type = .other then latest
  else match latest with
  | none => some event
  | some current =>
    if event.createdAt > current.createdAt
        || (event.createdAt = current.createdAt && event.type = .mergeSucceeded) then
      some event
    else latest

/-- `collectLegacyMergeEvidence`: the latest merge event of the task, and whether it has a
`merge_succeeded`. -/
def collectLegacyMergeEvidence (events : List HubTaskEvent) (taskId : TaskId) :
    Option HubTaskEvent × Bool :=
  let ofTask := events.filter (·.taskId == taskId)
  (ofTask.foldl laterMergeEvent none, ofTask.any (·.type == .mergeSucceeded))

/-! ### Classification -/

/-- `HubLegacyLandingDecision`. -/
inductive HubLegacyLandingDecision where
  | grandfatheredClosed
  | ancestryContained
  | eventWithoutAncestry
  | missingBranch
  | divergedTarget
  | insufficientEvidence
  deriving DecidableEq, Repr

/-- The text of a decision in incidents. -/
def HubLegacyLandingDecision.text : HubLegacyLandingDecision → String
  | .grandfatheredClosed => "grandfathered_closed"
  | .ancestryContained => "ancestry_contained"
  | .eventWithoutAncestry => "event_without_ancestry"
  | .missingBranch => "missing_branch"
  | .divergedTarget => "diverged_target"
  | .insufficientEvidence => "insufficient_evidence"

/-- `HubLegacyLandingEvidence`. -/
structure HubLegacyLandingEvidence where
  taskId : TaskId
  decision : HubLegacyLandingDecision
  accepted : Bool
  hadMergeSucceededEvent : Bool
  message : String
  nextAction : String := inspectAction
  branch : Option String := none
  sourceOid : Option Oid := none
  targetOid : Option Oid := none
  transactionId : Option TransactionId := none
  integrityIncident : Option String := none
  deriving DecidableEq, Repr

/-- `acceptLegacy`, applied to the entry without its suffix. -/
def acceptLegacy (entry : HubLegacyLandingEvidence) : HubLegacyLandingEvidence :=
  { entry with accepted := true, message := s!"{entry.message} {NO_RECOVER_SUFFIX}" }

/-- `rejectLegacy`, applied to the entry without its suffix. -/
def rejectLegacy (entry : HubLegacyLandingEvidence) : HubLegacyLandingEvidence :=
  { entry with
    accepted := false
    message := s!"{entry.message} {NO_RECOVER_SUFFIX}"
    integrityIncident := some s!"{HUB_LEGACY_LANDING_INTEGRITY}: {entry.decision.text}" }

/-- `isAncestor` of this module: `git merge-base --is-ancestor` alone. -/
def HubWorld.mergeBaseIsAncestor (git : Git) (s : HubWorld) (ancestor descendant : Oid) : Bool :=
  s.hasObject ancestor && s.hasObject descendant && git.isAncestor ancestor descendant

/-- `resolveTargetOids`: the host branch and the publish target, or `HEAD` without them. -/
def HubWorld.resolveTargetOids (s : HubWorld) (policy : Option HubLandingPolicy) : List Oid :=
  let pinned := match policy with
    | none => []
    | some p =>
      let hostOid := s.branches p.hostTargetBranch
      hostOid.toList ++ (s.publishTarget.filter fun oid => hostOid != some oid).toList
  if pinned.isEmpty then s.head.toList else pinned

/-- The part of `classifyTask` for an open task with a merge event. -/
def HubWorld.classifyMergedTask (git : Git) (s : HubWorld) (task : HubLegacyLandingTask)
    (mergeEvent : HubTaskEvent) (mergeSucceeded : Bool) (targetOids : List Oid) :
    HubLegacyLandingEvidence :=
  let branch :=
    if mergeEvent.branch = "" then resolveHubTaskBranch task.id task.title else mergeEvent.branch
  match s.branches branch, targetOids with
  | none, _ =>
    rejectLegacy {
      taskId := task.id, decision := .missingBranch, accepted := false
      hadMergeSucceededEvent := mergeSucceeded, branch := some branch
      targetOid := targetOids.head?
      message := s!"Rejected historical evidence for {task.id}: task branch {branch} is missing. Ambiguous in-flight work is not closed or reimplemented." }
  | some sourceOid, [] =>
    rejectLegacy {
      taskId := task.id, decision := .insufficientEvidence, accepted := false
      hadMergeSucceededEvent := mergeSucceeded, branch := some branch
      sourceOid := some sourceOid
      message := s!"Rejected historical evidence for {task.id}: configured target is unavailable. Ambiguous in-flight work is not closed or reimplemented." }
  | some sourceOid, targetOid :: _ =>
    match targetOids.find? fun oid => s.mergeBaseIsAncestor git sourceOid oid with
    | some containedIn =>
      acceptLegacy {
        taskId := task.id, decision := .ancestryContained, accepted := true
        hadMergeSucceededEvent := mergeSucceeded, branch := some branch
        sourceOid := some sourceOid, targetOid := some containedIn
        message := s!"Accepted historical evidence for {task.id}: source {sourceOid} is contained in the configured target. A mutating run will adopt this into a landing transaction without redoing preserved work." }
    | none =>
      if !s.mergeBaseIsAncestor git targetOid sourceOid then
        rejectLegacy {
          taskId := task.id, decision := .divergedTarget, accepted := false
          hadMergeSucceededEvent := mergeSucceeded, branch := some branch
          sourceOid := some sourceOid, targetOid := some targetOid
          message := s!"Rejected historical evidence for {task.id}: task branch and configured target have diverged. Ambiguous in-flight work is not closed or reimplemented." }
      else
        rejectLegacy {
          taskId := task.id, decision := .eventWithoutAncestry, accepted := false
          hadMergeSucceededEvent := mergeSucceeded, branch := some branch
          sourceOid := some sourceOid, targetOid := some targetOid
          message := s!"Rejected historical evidence for {task.id}: a historical merge_succeeded event is not landing proof. The task is not landed, closed, or shipped." }

/-- `classifyTask`: nothing is said about a task without merge events, and a closed task is
accepted when it has a `merge_succeeded`. -/
def HubWorld.classifyTask (git : Git) (s : HubWorld) (task : HubLegacyLandingTask)
    (events : List HubTaskEvent) (targetOids : List Oid) : Option HubLegacyLandingEvidence :=
  let (mergeEvent, mergeSucceeded) := collectLegacyMergeEvidence events task.id
  if isCompletedHubStatus task.hubStatus || task.done then
    if mergeSucceeded then
      some <| acceptLegacy {
        taskId := task.id, decision := .grandfatheredClosed, accepted := true
        hadMergeSucceededEvent := mergeSucceeded
        message := s!"Accepted historical evidence for {task.id}: already closed Beads status. Grandfathered as completed; no landing receipt required." }
    else none
  else
    mergeEvent.map fun event =>
      s.classifyMergedTask git task event mergeSucceeded targetOids

/-- `classifyHubLegacyLandingHistory`: the tasks that no transaction names, classified. -/
def HubWorld.classifyHubLegacyLandingHistory (git : Git) (s : HubWorld)
    (tasks : List HubLegacyLandingTask) (events : List HubTaskEvent)
    (policy : Option HubLandingPolicy) (existingTaskIds : List TaskId) :
    List HubLegacyLandingEvidence :=
  let targetOids := s.resolveTargetOids policy
  tasks.filterMap fun task =>
    if task.id ∈ existingTaskIds then none else s.classifyTask git task events targetOids

/-! ### Adoption -/

/-- `adoptedCheckpointFields`: the fields that every record of an adoption has. The adopted
candidate is the source commit, and its base is the target that contains it. -/
def adoptedCheckpointFields (transactionId : TransactionId) (taskId : TaskId)
    (sourceOid targetOid : Oid) (checkpoint : HubLandingCheckpoint) :
    HubLandingTransactionRecord where
  checkpoint := checkpoint
  transactionId := transactionId
  taskId := taskId
  sourceOid := some sourceOid
  baseOid := some targetOid
  candidateOid := some sourceOid

/-- The opening of an adoption: `ADOPTED_OPENING_CHECKPOINTS`, then
`persistAdoptedCandidate`. -/
def openAdoptedTransaction (transactionId : TransactionId) (taskId : TaskId)
    (sourceOid targetOid : Oid) : Hub Unit := do
  let record := adoptedCheckpointFields transactionId taskId sourceOid targetOid
  appendHubLandingCheckpoint (record .opened)
  appendHubLandingCheckpoint (record .basePinned)
  appendHubLandingCheckpoint (record .candidateCreated)
  writeCandidateManifestAndRef
    { transactionId := transactionId, taskId := taskId, sourceOid := sourceOid
      baseOid := targetOid, candidateOid := sourceOid }

/-- The rest of an adoption: verification, `target_landed` and the close. -/
def finishAdoption (git : Git) (call : HubCall) (transactionId : TransactionId)
    (taskId : TaskId) (sourceOid targetOid : Oid) : Hub Unit := do
  let parts ← computeHubVerifierParts
  bindHubLandingVerification git
    { transactionId := transactionId, taskId := taskId, candidateOid := sourceOid
      verifierFingerprint := parts.verifierFingerprint, call := call }
  appendHubLandingCheckpoint
    { adoptedCheckpointFields transactionId taskId sourceOid targetOid .targetLanded with
      verifierFingerprint := some parts.verifierFingerprint
      publishTargetOid := some targetOid }
  closeHubLandingTask git
    { taskId := taskId, transactionId := transactionId, candidateOid := sourceOid } call.now

/-- Adopts the source commit of a task into the transaction that it would have on the target.
A transaction that has a journal is not opened again. -/
def adoptSource (git : Git) (call : HubCall) (taskId : TaskId) (sourceOid targetOid : Oid) :
    Hub Unit := do
  let transactionId := resolveHubLandingTransactionId git taskId sourceOid targetOid
  let existing ← loadHubLandingTransaction transactionId
  Prog.when existing.isNone (openAdoptedTransaction transactionId taskId sourceOid targetOid)
  finishAdoption git call transactionId taskId sourceOid targetOid

/-- `adoptContainedTask`. -/
def adoptContainedTask (git : Git) (call : HubCall) (classified : HubLegacyLandingEvidence) :
    Hub HubLegacyLandingEvidence :=
  match classified.sourceOid, classified.targetOid, classified.branch with
  | some sourceOid, some targetOid, some branch => do
    adoptSource git call classified.taskId sourceOid targetOid
    let transactionId := resolveHubLandingTransactionId git classified.taskId sourceOid targetOid
    return acceptLegacy {
      taskId := classified.taskId, decision := .ancestryContained, accepted := true
      hadMergeSucceededEvent := classified.hadMergeSucceededEvent
      branch := some branch, sourceOid := some sourceOid, targetOid := some targetOid
      transactionId := some transactionId
      message := s!"Accepted historical evidence for {classified.taskId}: source {sourceOid} is contained in the configured target and was adopted into landing transaction {transactionId}." }
  | _, _, _ => return classified

/-- The loop of `adoptHubLegacyLandingHistory` over the classified entries. -/
def adoptClassified (git : Git) (call : HubCall) :
    List HubLegacyLandingEvidence → Hub (List HubLegacyLandingEvidence)
  | [] => return []
  | entry :: entries => do
    if entry.decision = .ancestryContained then
      let adopted ← adoptContainedTask git call entry
      let rest ← adoptClassified git call entries
      return adopted :: rest
    else
      let rest ← adoptClassified git call entries
      return entry :: rest

/-- The arguments of a reconciliation that the legacy history needs: the task board and the
event log as the run read them. -/
structure HubLegacyLandingInput where
  tasks : List HubLegacyLandingTask := []
  events : List HubTaskEvent := []

/-- `adoptHubLegacyLandingHistory`: classifies once, then adopts entry by entry. -/
def adoptHubLegacyLandingHistory (git : Git) (call : HubCall) (input : HubLegacyLandingInput)
    (policy : HubLandingPolicy) (existingTaskIds : List TaskId) :
    Hub (List HubLegacyLandingEvidence) := do
  let classified ← Prog.reads fun s =>
    s.classifyHubLegacyLandingHistory git input.tasks input.events (some policy) existingTaskIds
  adoptClassified git call classified

end ArchLoop
