import ArchLoop.LegacyHistory
import ArchLoop.Lib.JsonRecord
import ArchLoop.Lib.Text

/-!
# `ArchLoop.TaskBoard`: what the task store holds, and the board that is read from it

The model of the first half of `taskBoard.ts`. A Beads issue has a lifecycle status, labels and
a metadata object. `projectHubTask` reads from them the Hub status of the task: an explicit
status key, a reason key, a status label and the lifecycle, in an order of precedence that
`resolveStatusFromTaskShape` fixes. The same status is thus written in several places, and
what the board shows depends on all of them.

Keys are compared after `normalizeKey`. Labels that spell a member of every JavaScript object
(`constructor`, `__proto__`) are outside this model of the board.
-/

set_option autoImplicit false

namespace ArchLoop.TaskBoard

open ArchLoop.Lib

/-! ### Keys -/

/-- The lower-case letter, as far as it can spell a key: of the letters outside ASCII only the
Kelvin sign has an ASCII lower-case letter. -/
def lowerChar (c : Char) : Char :=
  if c.toNat = 0x212a then 'k' else c.toLower

/-- Each run of blanks and dashes as one underscore. -/
def underscoreRuns : Bool → List Char → List Char
  | _, [] => []
  | inRun, c :: rest =>
    if isBlank c || c == '-' then
      if inRun then underscoreRuns true rest else '_' :: underscoreRuns true rest
    else c :: underscoreRuns false rest

/-- `normalizeKey`. -/
def normalizeKey (value : String) : String :=
  String.ofList (underscoreRuns false ((trim value).toList.map lowerChar))

/-! ### Statuses -/

/-- `HUB_TASK_STATUSES`. -/
def HUB_TASK_STATUSES : List HubTaskStatus :=
  [.inbox, .needsInfo, .readyForAgent, .readyForHuman, .blocked, .implementing, .reviewing,
    .waitingForMerge, .merging, .publishing, .done, .wontfix, .failed, .syncConflict]

/-- The text of a status. -/
def statusText : HubTaskStatus → String
  | .inbox => "inbox"
  | .needsInfo => "needs_info"
  | .readyForAgent => "ready_for_agent"
  | .readyForHuman => "ready_for_human"
  | .blocked => "blocked"
  | .implementing => "implementing"
  | .reviewing => "reviewing"
  | .waitingForMerge => "waiting_for_merge"
  | .merging => "merging"
  | .publishing => "publishing"
  | .done => "done"
  | .wontfix => "wontfix"
  | .failed => "failed"
  | .syncConflict => "sync_conflict"

/-- `HUB_COLLABORATION_LABELS_TO_CLEAR`. -/
def HUB_COLLABORATION_LABELS_TO_CLEAR : List String :=
  ["needs-triage", "needs-info", "ready-for-agent", "ready-for-human", "blocked", "wontfix",
    "sync-conflict"]

/-- `BEADS_LIFECYCLE_STATUSES`. -/
def BEADS_LIFECYCLE_STATUSES : List String :=
  ["open", "in_progress", "blocked", "closed"]

/-- `TASK_STATUS_KEYS`. -/
def TASK_STATUS_KEYS : List String :=
  ["hub_status", "hubStatus", "task_status", "taskStatus", "hub_state", "hubState",
    "triage_status", "triageStatus", "task_board_status", "taskBoardStatus"]

/-- `BEADS_LIFECYCLE_KEYS`. -/
def BEADS_LIFECYCLE_KEYS : List String :=
  ["state", "status", "lifecycle"]

/-- `METADATA_STATUS_RULES`. -/
def METADATA_STATUS_RULES : List (List String × HubTaskStatus) :=
  [(["blocked_reason", "blockedReason", "blocked_reason_kind", "blockedReasonKind", "blocked"],
      .blocked),
    (["needs_info", "needsInfo", "needs_info_reason", "needsInfoReason"], .needsInfo),
    (["failed", "failedReason", "failure_reason", "failureReason"], .failed),
    (["sync_conflict", "syncConflict", "sync_conflict_reason", "syncConflictReason"],
      .syncConflict),
    (["wontfix", "wontFix", "rejected"], .wontfix),
    (["done"], .done)]

/-- `IMPLEMENTING_LABEL_STATUSES`. -/
def IMPLEMENTING_LABEL_STATUSES : List HubTaskStatus :=
  [.inbox, .needsInfo, .readyForAgent, .readyForHuman]

/-- `LABEL_AUTHORITATIVE_STATUSES`. -/
def LABEL_AUTHORITATIVE_STATUSES : List HubTaskStatus :=
  [.implementing, .reviewing, .waitingForMerge, .merging, .publishing, .failed, .done, .wontfix]

/-- `STATUS_LABEL_TO_HUB_STATUS`. -/
def STATUS_LABEL_TO_HUB_STATUS : List (String × HubTaskStatus) :=
  [("needs_triage", .inbox), ("inbox", .inbox), ("needs_info", .needsInfo),
    ("ready_for_agent", .readyForAgent), ("ready_for_human", .readyForHuman),
    ("blocked", .blocked), ("implementing", .implementing), ("reviewing", .reviewing),
    ("waiting_for_merge", .waitingForMerge), ("merging", .merging),
    ("publishing", .publishing), ("done", .done), ("wontfix", .wontfix), ("failed", .failed),
    ("sync_conflict", .syncConflict)]

/-! ### Reading values -/

/-- The first of the keys whose value is neither missing nor `null`: a chain of `??`. -/
def coalesce (r : Record) (keys : List String) : Option Json :=
  keys.findSome? fun key =>
    match r.get key with
    | some .null => none
    | value => value

/-- The trimmed text, unless it is blank. -/
def nonBlank (text : String) : Option String :=
  if trim text = "" then none else some (trim text)

/-- `readFirstString`. -/
def readFirstString (r : Record) (keys : List String) : Option String :=
  keys.findSome? fun key => ((r.get key).bind Json.text?).bind nonBlank

/-- `readObject`. -/
def readObject : Option Json → Record
  | some (.obj entries) => entries
  | _ => []

/-- `readStringList` on one item. -/
def readListItem (keys : List String) : Json → List String
  | .str text => (nonBlank text).toList
  | .obj entries =>
    ((readFirstString entries keys).or
      (readFirstString entries ["name", "title", "id", "ref"])).toList
  | .arr _ => []
  | _ => []

/-- `readStringList`. -/
def readStringList (value : Option Json) (keys : List String := []) : List String :=
  match value with
  | some (.arr items) => items.flatMap (readListItem keys)
  | _ => []

/-- `uniqueStrings`. -/
def uniqueStrings (values : List String) : List String :=
  values.eraseDups

/-- `readRefs`. -/
def readRefs (value : Option Json) : List String :=
  readStringList value ["url", "ref", "name", "title", "id", "branch"]

/-- The number that the digits write. -/
def readDigits (cs : List Char) : Option Nat :=
  if cs ≠ [] ∧ cs.all Char.isDigit then
    some (cs.foldl (fun n c => 10 * n + (c.toNat - '0'.toNat)) 0)
  else none

/-- `formatGithubRemoteRef`. -/
def formatGithubRemoteRef (issueNumber : Nat) : String :=
  s!"github#{issueNumber}"

/-- `readGithubIssueRemoteRefs`. -/
def readGithubIssueRemoteRefs : Option Json → List String
  | some (.num n) => if 0 < n then [formatGithubRemoteRef n.toNat] else []
  | some (.str text) => ((readDigits (trim text).toList).map formatGithubRemoteRef).toList
  | _ => []

/-- `normalizeHubTaskStatus`. -/
def normalizeHubTaskStatus (text : String) : Option HubTaskStatus :=
  HUB_TASK_STATUSES.find? fun status => statusText status == normalizeKey text

/-- `normalizeBeadsLifecycle`. -/
def normalizeBeadsLifecycle (text : String) : Option String :=
  if normalizeKey text ∈ BEADS_LIFECYCLE_STATUSES then some (normalizeKey text) else none

/-! ### The status of a task -/

/-- `resolveMetadataStatus`. -/
def resolveMetadataStatus (metadata : Record) : Option HubTaskStatus :=
  TASK_STATUS_KEYS.findSome? fun key =>
    ((metadata.get key).bind Json.text?).bind normalizeHubTaskStatus

/-- The value counts as set: it is neither missing, nor `null`, nor a blank text. -/
def isSetValue : Option Json → Bool
  | none => false
  | some .null => false
  | some (.str text) => trim text != ""
  | some _ => true

/-- `hasTruthyMetadata`. -/
def hasTruthyMetadata (metadata : Record) (keys : List String) : Bool :=
  keys.any fun key => isSetValue (metadata.get key)

/-- `resolveStatusFromMetadataReasons`. -/
def resolveStatusFromMetadataReasons (metadata : Record) : Option HubTaskStatus :=
  METADATA_STATUS_RULES.findSome? fun rule =>
    if hasTruthyMetadata metadata rule.1 then some rule.2 else none

/-- `resolveStatusFromLabels`. -/
def resolveStatusFromLabels (labels : List String) : Option HubTaskStatus :=
  labels.findSome? fun label => STATUS_LABEL_TO_HUB_STATUS.lookup (normalizeKey label)

/-- The part of `resolveStatusFromTaskShape` after the reasons: an authoritative label, the
written status, any other label, the lifecycle. -/
def resolveStatusWithoutReason (lifecycle : Option String)
    (labelStatus metadataStatus : Option HubTaskStatus) : HubTaskStatus :=
  match labelStatus.filter fun labelled =>
      labelled ∈ LABEL_AUTHORITATIVE_STATUSES && metadataStatus ≠ some labelled with
  | some labelled => labelled
  | none =>
    match metadataStatus, labelStatus with
    | some written, _ => written
    | none, some labelled =>
      if lifecycle = some "in_progress" && labelled ∈ IMPLEMENTING_LABEL_STATUSES then
        .implementing
      else labelled
    | none, none =>
      if lifecycle = some "blocked" then .blocked
      else if lifecycle = some "closed" then .done
      else if lifecycle = some "in_progress" then .implementing
      else .inbox

/-- `resolveStatusFromTaskShape`. -/
def resolveStatusFromTaskShape (task : Record) (labels : List String) (metadata : Record) :
    HubTaskStatus :=
  match (readFirstString task TASK_STATUS_KEYS).bind normalizeHubTaskStatus with
  | some direct => direct
  | none =>
    let lifecycle := (readFirstString task BEADS_LIFECYCLE_KEYS).bind normalizeBeadsLifecycle
    let metadataStatus := resolveMetadataStatus metadata
    match resolveStatusFromMetadataReasons metadata with
    | some reason =>
      match metadataStatus with
      | some written =>
        -- a completed task keeps its status through a sync conflict
        if reason = .syncConflict && isCompletedHubStatus written then written else reason
      | none => reason
    | none => resolveStatusWithoutReason lifecycle (resolveStatusFromLabels labels) metadataStatus

/-! ### Claims -/

/-- `HubTaskClaimMetadata`. -/
structure HubTaskClaimMetadata where
  runId : Option String
  batchId : Option String
  taskId : Option String
  branch : Option String
  claimedAt : Option String
  baseHead : Option String
  branchExistedBeforeClaim : Option Bool
  raw : Record

/-- `readClaimRecord`: the nested claim, or the metadata itself when it has the fields of
one. -/
def readClaimRecord (metadata : Record) : Option Record :=
  match readObject (coalesce metadata ["claim", "hubClaim", "hub_claim", "taskClaim"]) with
  | [] =>
    if ["runId", "batchId", "branch", "claimedAt"].all fun key =>
        (((metadata.get key).bind Json.text?).bind nonBlank).isSome then some metadata
    else none
  | nested => some nested

/-- `readBoolean`: the first of the keys that holds a truth value, or the text of one. -/
def readBoolean (r : Record) (keys : List String) : Option Bool :=
  keys.findSome? fun key =>
    match r.get key with
    | some (.bool b) => some b
    | some (.str text) =>
      if text = "true" then some true else if text = "false" then some false else none
    | _ => none

/-- `readHubTaskClaim`. -/
def readHubTaskClaim (metadata : Record) : Option HubTaskClaimMetadata :=
  (readClaimRecord metadata).map fun claim => {
    runId := readFirstString claim ["runId", "run_id"]
    batchId := readFirstString claim ["batchId", "batch_id"]
    taskId := readFirstString claim ["taskId", "task_id"]
    branch := readFirstString claim ["branch"]
    claimedAt := readFirstString claim ["claimedAt", "claimed_at"]
    baseHead := readFirstString claim ["baseHead", "base_head"]
    branchExistedBeforeClaim :=
      readBoolean claim ["branchExistedBeforeClaim", "branch_existed_before_claim"]
    raw := claim }

/-- `ACTIVE_HUB_TASK_CLAIM_STATUSES`. -/
def ACTIVE_HUB_TASK_CLAIM_STATUSES : List HubTaskStatus :=
  [.implementing, .reviewing, .waitingForMerge, .merging]

/-- `isHubTaskClaimActive`. -/
def isHubTaskClaimActive (hubStatus : HubTaskStatus) : Bool :=
  decide (hubStatus ∈ ACTIVE_HUB_TASK_CLAIM_STATUSES)

/-- The states of a claim. -/
inductive HubTaskClaimState where
  | active
  | stale
  deriving DecidableEq, Repr

/-- `resolveHubTaskClaimState`. -/
def resolveHubTaskClaimState (hubStatus : HubTaskStatus)
    (claim : Option HubTaskClaimMetadata) : Option HubTaskClaimState :=
  claim.map fun _ => if isHubTaskClaimActive hubStatus then .active else .stale

/-! ### The projection -/

/-- `HubTaskProjection`. -/
structure HubTaskProjection where
  id : TaskId
  title : String
  beadsStatus : Option String
  hubStatus : HubTaskStatus
  owner : Option String
  claim : Option HubTaskClaimMetadata
  claimState : Option HubTaskClaimState
  labels : List String
  metadata : Record
  description : Option String
  notes : Option String
  remoteRefs : List String
  runRefs : List String

/-- `String(value)` of an id, which is a text or a number. -/
def showId : Json → String
  | .str text => text
  | .num n => toString n
  | _ => ""

/-- `projectHubTask`. -/
def projectHubTask (task : Record) : HubTaskProjection :=
  let metadata := readObject
    (coalesce task ["metadata", "meta", "custom_metadata", "customMetadata"])
  let labels := readStringList (coalesce task ["labels", "tags", "labelNames"])
  let hubStatus := resolveStatusFromTaskShape task labels metadata
  let claim := readHubTaskClaim metadata
  { id := ((coalesce task ["id", "key", "slug", "title"]).map showId).getD "unknown"
    title := (readFirstString task ["title", "summary", "name"]).getD
      (((coalesce task ["id"]).map showId).getD "untitled")
    beadsStatus := readFirstString task BEADS_LIFECYCLE_KEYS
    hubStatus := hubStatus
    owner := readFirstString task ["owner", "assignee", "claimed_by", "claimedBy"]
    claim := claim
    claimState := resolveHubTaskClaimState hubStatus claim
    labels := labels
    metadata := metadata
    description := readFirstString task ["description", "body", "details"]
    notes := readFirstString task ["notes", "note"]
    remoteRefs := uniqueStrings <|
      readRefs (coalesce task ["remoteRefs", "remote_refs", "remoteReferences"]) ++
      readRefs (coalesce metadata ["remoteRefs", "remote_refs", "remoteReferences"]) ++
      readGithubIssueRemoteRefs (metadata.get "github_issue")
    runRefs := uniqueStrings <|
      readRefs (coalesce task ["runRefs", "run_refs", "runReferences"]) ++
      readRefs (coalesce metadata ["runRefs", "run_refs", "runReferences"]) }

end ArchLoop.TaskBoard
