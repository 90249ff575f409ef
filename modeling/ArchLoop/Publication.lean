import ArchLoop.Policy

/-!
# `ArchLoop.Publication`: publishing landed candidates to a remote

The model of `hubPublication.ts`. `enqueueHubPublication` writes an outbox item with the
remote tip that it observes. `projectHubPublicationOutbox` takes each item in turn and
pushes it, unless the remote already contains the candidate or has moved to a tip that is
neither the recorded one nor behind the candidate (`remoteTipDivergedFromExpectation`).

`isHubRemotePublicationProven` is the proof of delivery that a required close waits for, and
`driveHubRequiredPublication` projects the outbox until nothing is pending or the timeout
has passed.
-/

set_option autoImplicit false

namespace ArchLoop

open ArchLoop.Lib

/-- `GIT_ZERO_OID`: the oid that stands for a branch that does not exist. -/
def GIT_ZERO_OID : Oid := "0000000000000000000000000000000000000000"

/-- `UNSET_REMOTE_MARKER`: the remote of an item that has no remote configured. -/
def UNSET_REMOTE_MARKER : String := "(unset)"

/-- A remote target `name/branch`, taken apart. -/
structure HubPublicationRemoteTarget where
  remoteName : String
  branchName : String
  remoteRef : String
  remoteTarget : String
  deriving DecidableEq, Repr

/-- White space as `String.prototype.trim` removes it, for the ASCII range. -/
def trimChars (cs : List Char) : List Char :=
  ((cs.dropWhile Char.isWhitespace).reverse.dropWhile Char.isWhitespace).reverse

/-- Splits `name/branch` at its first slash. A target without a slash, or with nothing
before or after the first one, has no parse. -/
def parseHubPublicationRemoteTarget (remoteTarget : String) :
    Option HubPublicationRemoteTarget :=
  let trimmed := trimChars remoteTarget.toList
  let name := trimmed.takeWhile (· != '/')
  let branch := (trimmed.dropWhile (· != '/')).drop 1
  if name.isEmpty || branch.isEmpty then none
  else
    let branchName := String.ofList branch
    some {
      remoteName := String.ofList name
      branchName := branchName
      remoteRef :=
        if "refs/".toList.isPrefixOf branch then branchName else s!"refs/heads/{branchName}"
      remoteTarget := String.ofList trimmed }

/-- The id of an outbox item. -/
def resolveHubPublicationId (git : Git) (transactionId : TransactionId)
    (remoteName remoteRef : String) (candidateOid expectedRemoteOid : Oid) : String :=
  let digest := git.sha256
    s!"{transactionId}\x00{remoteName}\x00{remoteRef}\x00{candidateOid}\x00{expectedRemoteOid}"
  s!"pub-{String.ofList (digest.toList.take 16)}"

/-! ### The outbox files -/

/-- `readOutboxItem`. -/
def HubWorld.outboxItem (s : HubWorld) (id : String) : Option HubPublicationOutboxItem :=
  s.publicationOutbox.find? (·.id == id)

/-- The outbox with the item's file written. -/
def writeItem (item : HubPublicationOutboxItem) :
    List HubPublicationOutboxItem → List HubPublicationOutboxItem
  | [] => [item]
  | first :: rest => if first.id = item.id then item :: rest else first :: writeItem item rest

/-- `writeOutboxItem`. -/
def writeOutboxItem (item : HubPublicationOutboxItem) : Hub HubPublicationOutboxItem := do
  Prog.modify fun s => { s with publicationOutbox := writeItem item s.publicationOutbox }
  return item

/-- `listHubPublicationOutboxItems`: the items by their creation time. -/
def HubWorld.outboxItems (s : HubWorld) : List HubPublicationOutboxItem :=
  s.publicationOutbox.insertionSort fun a b => a.createdAt ≤ b.createdAt

/-- `isHubRemotePublicationProven`, for a given candidate. -/
def HubWorld.isHubRemotePublicationProven (s : HubWorld) (transactionId : TransactionId)
    (candidateOid : Oid) : Bool :=
  s.publicationOutbox.any fun item =>
    item.transactionId == transactionId && item.status == .succeeded &&
      item.candidateOid == candidateOid

/-! ### The remote -/

/-- Whether the text contains the pattern. -/
def textIncludes (text pattern : String) : Bool :=
  text.toList.tails.any pattern.toList.isPrefixOf

/-- `classifyRemoteFailure`: the reason that an error text of Git stands for. -/
def classifyRemoteFailure (stderr : String) : HubPublicationPendingReason :=
  let text := stderr.toLower
  if ["could not resolve host", "failed to connect", "unable to access",
      "network is unreachable", "connection refused", "timed out",
      "temporary failure"].any (textIncludes text) then .networkError
  else if ["authentication failed", "invalid username", "permission denied", "access denied",
      "could not read username", "401", "403",
      "terminal prompts disabled"].any (textIncludes text) then .credentialRejected
  else if ["protected branch", "protected ref", "gh-hook", "pre-receive hook declined",
      "hook declined"].any (textIncludes text) then .protectedBranch
  else if ["failed to push some refs", "non-fast-forward", "stale info", "cannot lock ref",
      "fetch first"].any (textIncludes text) then .remoteDiverged
  else .transientRemoteError

/-- What `git ls-remote` says about a branch of a remote. -/
def HubRemote.observe (remote : HubRemote) (remoteRef : String) :
    Except HubPublicationPendingReason (Option Oid) :=
  match remote.unreachable with
  | some stderr => .error (classifyRemoteFailure stderr)
  | none => if remote.garbled then .error .observeFailed else .ok (remote.tip remoteRef)

/-- `observeRemoteTip`. -/
def observeRemoteTip (remoteName remoteRef : String) :
    Hub (Except HubPublicationPendingReason (Option Oid)) :=
  .reads fun s => (s.remotes remoteName).observe remoteRef

/-- `observeRemoteTipSync`: a remote that does not answer counts as one without the branch. -/
def observeRemoteTipSync (remoteName remoteRef : String) : Hub (Option Oid) :=
  .reads fun s =>
    match (s.remotes remoteName).observe remoteRef with
    | .ok tip => tip
    | .error _ => none

/-- `ensureCandidateObjectFetched`: fetches the branch when its tip is not there. -/
def ensureCandidateObjectFetched (git : Git) (item : HubPublicationOutboxItem) (tip : Oid) :
    Hub Unit := do
  if !(← Prog.reads fun s => s.hasObject tip) then
    Prog.modify fun s =>
      match (s.remotes item.remoteName).observe item.remoteRef with
      | .ok (some fetched) =>
        { s with hasObject := fun oid => s.hasObject oid || git.isAncestor oid fetched }
      | _ => s

/-- The local test that a tip contains the candidate (`remoteContainsCandidate`). -/
def HubWorld.remoteContainsCandidate (git : Git) (s : HubWorld) (candidateOid : Oid)
    (tip : Option Oid) : Bool :=
  tip.any fun t => s.isAncestor git candidateOid t

/-- The local test that the candidate is ahead of a tip (`candidateIsFastForwardOf`). -/
def HubWorld.candidateIsFastForwardOf (git : Git) (s : HubWorld) (candidateOid : Oid)
    (tip : Option Oid) : Bool :=
  tip.any fun t => s.isAncestor git t candidateOid

/-- `remoteTipDivergedFromExpectation`: the tip is not the one that `enqueue` recorded, and
the candidate is not ahead of it. -/
def HubWorld.remoteTipDivergedFromExpectation (git : Git) (s : HubWorld)
    (item : HubPublicationOutboxItem) (tip : Option Oid) : Bool :=
  match tip with
  | none => false
  | some t =>
    t != item.expectedRemoteOid && !s.candidateIsFastForwardOf git item.candidateOid (some t)

/-- What a push with the arguments of `buildPushArgs` may replace. Without a lease Git only
creates the branch or fast-forwards it; with a lease the tip has to be the leased oid. -/
def pushMayReplace (git : Git) (tip : Option Oid) (candidateOid lease : Oid) : Bool :=
  if lease = GIT_ZERO_OID then tip.all fun t => git.isAncestor t candidateOid
  else tip == some lease

/-- The remote takes a push of the candidate with this lease and moves the branch. A branch
that is already at the candidate does not move. -/
def HubWorld.acceptsPush (git : Git) (s : HubWorld) (item : HubPublicationOutboxItem)
    (lease : Oid) : Bool :=
  let remote := s.remotes item.remoteName
  remote.unreachable.isNone && remote.rejects.isNone &&
    remote.tip item.remoteRef != some item.candidateOid &&
    pushMayReplace git (remote.tip item.remoteRef) item.candidateOid lease

/-- The world after the remote took the push. -/
def HubWorld.pushed (s : HubWorld) (item : HubPublicationOutboxItem) : HubWorld :=
  let remote := s.remotes item.remoteName
  { s with
    remotes := Function.update s.remotes item.remoteName
      { remote with tip := Function.update remote.tip item.remoteRef (some item.candidateOid) }
    trace := s.trace ++ [.remotePush item (remote.tip item.remoteRef)] }

/-- `pushCandidate`: none when Git reports success, else the error text. A connection that
drops can report an error for a push that was applied. -/
def pushCandidate (git : Git) (item : HubPublicationOutboxItem) (lease : Oid) :
    Hub (Option String) :=
  .act
    (fun s => if s.acceptsPush git item lease then s.pushed item else s)
    (fun s =>
      let remote := s.remotes item.remoteName
      .ret <|
        if s.acceptsPush git item lease then remote.drops
        else if remote.unreachable.isNone && remote.tip item.remoteRef == some item.candidateOid
          then none
        else remote.unreachable <|> remote.rejects <|> some "stale info")

/-! ### Enqueueing -/

/-- `shouldEnqueuePublication`. -/
def shouldEnqueuePublication (policy : HubLandingPolicy) : Bool :=
  policy.publishPolicy == .bestEffort || policy.publishPolicy == .required

/-- `enqueueUnsetRemotePending`: the item of a policy without a remote target. -/
def enqueueUnsetRemotePending (git : Git) (transactionId : TransactionId) (taskId : TaskId)
    (candidateOid : Oid) (now : Timestamp) : Hub (Option HubPublicationOutboxItem) := do
  let id := resolveHubPublicationId git transactionId UNSET_REMOTE_MARKER UNSET_REMOTE_MARKER
    candidateOid GIT_ZERO_OID
  match ← Prog.reads fun s => s.outboxItem id with
  | some existing => return some existing
  | none =>
    let item ← writeOutboxItem
      { id := id, transactionId := transactionId, taskId := taskId
        remoteName := UNSET_REMOTE_MARKER, remoteRef := UNSET_REMOTE_MARKER
        remoteTarget := UNSET_REMOTE_MARKER, candidateOid := candidateOid
        expectedRemoteOid := GIT_ZERO_OID, status := .pending, createdAt := now
        pendingReason := some .noRemoteConfigured }
    return some item

/-- `findSiblingOutboxItem`: an item of the same transaction, remote branch and candidate. -/
def HubWorld.siblingOutboxItem (s : HubWorld) (transactionId : TransactionId)
    (parsed : HubPublicationRemoteTarget) (candidateOid : Oid) :
    Option HubPublicationOutboxItem :=
  s.outboxItems.find? fun item =>
    item.transactionId == transactionId && item.remoteName == parsed.remoteName &&
      item.remoteRef == parsed.remoteRef && item.candidateOid == candidateOid

/-- The item that `enqueueHubPublication` writes after it observed the remote tip. -/
def newOutboxItem (git : Git) (transactionId : TransactionId) (taskId : TaskId)
    (parsed : HubPublicationRemoteTarget) (candidateOid : Oid) (observedTip : Option Oid)
    (now : Timestamp) : HubPublicationOutboxItem where
  id := resolveHubPublicationId git transactionId parsed.remoteName parsed.remoteRef
    candidateOid (observedTip.getD GIT_ZERO_OID)
  transactionId := transactionId
  taskId := taskId
  remoteName := parsed.remoteName
  remoteRef := parsed.remoteRef
  remoteTarget := parsed.remoteTarget
  candidateOid := candidateOid
  expectedRemoteOid := observedTip.getD GIT_ZERO_OID
  status := .pending
  createdAt := now

/-- Writes an outbox item for the candidate, with the remote tip that it observes, unless
the outbox already has one for the same transaction, remote branch and candidate. -/
def enqueueHubPublication (git : Git) (policy : HubLandingPolicy)
    (transactionId : TransactionId) (taskId : TaskId) (candidateOid : Oid) (now : Timestamp) :
    Hub (Option HubPublicationOutboxItem) :=
  if !shouldEnqueuePublication policy then return none
  else match policy.remoteTarget with
  | none => enqueueUnsetRemotePending git transactionId taskId candidateOid now
  | some remoteTargetValue =>
    match parseHubPublicationRemoteTarget remoteTargetValue with
    | none => return none
    | some parsed => do
      let observedTip ← observeRemoteTipSync parsed.remoteName parsed.remoteRef
      let item := newOutboxItem git transactionId taskId parsed candidateOid observedTip now
      match ← Prog.reads fun s => s.outboxItem item.id with
      | some existing => return some existing
      | none =>
        match ← Prog.reads fun s => s.siblingOutboxItem transactionId parsed candidateOid with
        | some sibling => return some sibling
        | none =>
          let written ← writeOutboxItem item
          return some written

/-- `enqueueHubPublicationAfterShipped`, with the policy of the project. -/
def enqueueHubPublicationAfterShipped (git : Git) (transactionId : TransactionId)
    (taskId : TaskId) (candidateOid : Oid) (now : Timestamp) : Hub Unit := do
  match ← readHubLandingPolicy with
  | none => return ()
  | some policy =>
    let _item ← enqueueHubPublication git policy transactionId taskId candidateOid now
    return ()

/-! ### Projecting -/

/-- The item after `markSucceeded`. -/
def HubPublicationOutboxItem.succeeded (item : HubPublicationOutboxItem) (publishedOid : Oid) :
    HubPublicationOutboxItem :=
  { item with
    status := .succeeded, publishedOid := some publishedOid, pendingReason := none
    ambiguousPushAcknowledged := false }

/-- The item after `markAmbiguousPushAcknowledged`. -/
def HubPublicationOutboxItem.acknowledged (item : HubPublicationOutboxItem) :
    HubPublicationOutboxItem :=
  { item with status := .pending, ambiguousPushAcknowledged := true }

/-- The item after `markPending`. -/
def HubPublicationOutboxItem.pending (item : HubPublicationOutboxItem)
    (reason : HubPublicationPendingReason) : HubPublicationOutboxItem :=
  { item with status := .pending, pendingReason := some reason }

/-- `isUnsetRemoteItem`. -/
def HubPublicationOutboxItem.isUnsetRemote (item : HubPublicationOutboxItem) : Bool :=
  item.pendingReason == some .noRemoteConfigured || item.remoteName == UNSET_REMOTE_MARKER

/-- `trySucceedFromRemoteObservation`: succeeds when the remote contains the candidate. -/
def trySucceedFromRemoteObservation (git : Git) (item : HubPublicationOutboxItem) :
    Hub (Option HubPublicationOutboxItem) := do
  match ← observeRemoteTip item.remoteName item.remoteRef with
  | .ok (some tip) =>
    if ← Prog.reads fun s => s.remoteContainsCandidate git item.candidateOid (some tip) then
      let written ← writeOutboxItem (item.succeeded tip)
      return some written
    else
      return none
  | _ => return none

/-- `pushCandidateWithCrashWindows`: pushes, and then records what the remote shows. -/
def pushCandidateWithCrashWindows (git : Git) (item : HubPublicationOutboxItem) (lease : Oid) :
    Hub HubPublicationOutboxItem := do
  match ← pushCandidate git item lease with
  | some stderr =>
    match ← trySucceedFromRemoteObservation git item with
    | some recovered => return recovered
    | none => writeOutboxItem (item.pending (classifyRemoteFailure stderr))
  | none =>
    let acknowledged ← writeOutboxItem item.acknowledged
    match ← trySucceedFromRemoteObservation git acknowledged with
    | some confirmed => return confirmed
    | none => writeOutboxItem (acknowledged.succeeded item.candidateOid)

/-- Fetches the branch, when the remote has it. -/
def ensureTipFetched (git : Git) (item : HubPublicationOutboxItem) : Option Oid → Hub Unit
  | some tip => ensureCandidateObjectFetched git item tip
  | none => return ()

/-- The part of `projectOneItem` that follows a remote tip that could be observed. -/
def projectObservedItem (git : Git) (item : HubPublicationOutboxItem) (tip : Option Oid) :
    Hub HubPublicationOutboxItem := do
  ensureTipFetched git item tip
  if ← Prog.reads fun s => s.remoteContainsCandidate git item.candidateOid tip then
    writeOutboxItem (item.succeeded (tip.getD item.candidateOid))
  else if item.ambiguousPushAcknowledged then
    writeOutboxItem (item.pending .remoteForceRewriteIntegrity)
  else if ← Prog.reads fun s => s.remoteTipDivergedFromExpectation git item tip then
    writeOutboxItem (item.pending .remoteDiverged)
  else
    pushCandidateWithCrashWindows git item (tip.getD GIT_ZERO_OID)

/-- `projectOneItem`. -/
def projectOneItem (git : Git) (item : HubPublicationOutboxItem) :
    Hub HubPublicationOutboxItem :=
  if item.status = .succeeded then return item
  else if item.pendingReason = some .remoteForceRewriteIntegrity then
    writeOutboxItem (item.pending .remoteForceRewriteIntegrity)
  else if item.isUnsetRemote then
    writeOutboxItem (item.pending .noRemoteConfigured)
  else do
    match ← observeRemoteTip item.remoteName item.remoteRef with
    | .error reason => writeOutboxItem (item.pending reason)
    | .ok tip => projectObservedItem git item tip

/-- Projects the items one after the other. -/
def projectItems (git : Git) :
    List HubPublicationOutboxItem → Hub (List HubPublicationOutboxItem)
  | [] => return []
  | item :: items => do
    let projected ← projectOneItem git item
    let rest ← projectItems git items
    return projected :: rest

/-- `projectHubPublicationOutbox`: the items after one attempt on each. -/
def projectHubPublicationOutbox (git : Git) : Hub (List HubPublicationOutboxItem) := do
  let items ← Prog.reads fun s => s.outboxItems
  projectItems git items

/-- `syncHubPublications`. -/
def syncHubPublications (git : Git) : Hub (List HubPublicationOutboxItem) :=
  projectHubPublicationOutbox git

/-! ### Required delivery -/

/-- `HubRequiredDeliveryDriveResult.outcome`. -/
inductive HubRequiredDeliveryOutcome where
  | delivered
  | completedWithPendingDelivery
  | notRequired
  deriving DecidableEq, Repr

/-- `pendingCount` of an outcome. -/
def pendingCount (items : List HubPublicationOutboxItem) : Nat :=
  items.countP fun item => item.status == .pending

/-- The loop of `driveHubRequiredPublication`: projects until nothing is pending. `polls` is
how many further attempts fit before the timeout. -/
def driveUntilDelivered (git : Git) : Nat → Hub HubRequiredDeliveryOutcome
  | 0 => do
    let items ← projectHubPublicationOutbox git
    if pendingCount items = 0 then return .delivered
    else return .completedWithPendingDelivery
  | polls + 1 => do
    let items ← projectHubPublicationOutbox git
    if pendingCount items = 0 then return .delivered
    else driveUntilDelivered git polls

/-- `driveHubRequiredPublication` with the policy that the caller passes. -/
def driveHubRequiredPublication (git : Git) (policy : HubLandingPolicy) (polls : Nat) :
    Hub HubRequiredDeliveryOutcome :=
  if policy.publishPolicy = .required then driveUntilDelivered git polls
  else do
    let _items ← projectHubPublicationOutbox git
    return .notRequired

end ArchLoop
