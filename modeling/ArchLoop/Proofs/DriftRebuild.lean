import ArchLoop.Lib.Stable
import ArchLoop.Proofs.Frames
import ArchLoop.Proofs.LandingGate

/-!
# `ArchLoop.Proofs.DriftRebuild`: the base of a rebuilt candidate

`rebuildCandidate` runs while others move the publish target. `seen` has every value that the
target takes meanwhile, and `targetSeen seen` is the condition that others keep.

`holds_rebuildCandidate` says what the base of the rebuilt candidate is: the predecessor, when the
task has one, and else a value of the target. So `driftRebuild_onTarget_iff` is exact: a task
behind an earlier merge is rebuilt on the old base again.

`meets_landHubCandidateWithLease` is the other half: a landing attempt whose candidate is based on
a target that stays still is not a drift. The condition that others keep there (`stillAt`) also
says that a lease with the nonce of the call is the call's own.
-/

set_option autoImplicit false

namespace ArchLoop

open ArchLoop.Lib

variable {git : Git}

/-! ### The rebuild -/

/-- The publish target is there, and has a value that was seen. -/
def targetSeen (seen : Oid → Prop) (s : HubWorld) : Prop :=
  ∃ v, s.publishTarget = some v ∧ seen v

/-- Others leave the publish target with a value that was seen. -/
def movesSeen (seen : Oid → Prop) (_s t : HubWorld) : Prop :=
  targetSeen seen t

section Rebuild

variable {seen : Oid → Prop}

/-- A state is followed by itself, or by one that others have left. -/
def seenRely (seen : Oid → Prop) (s t : HubWorld) : Prop :=
  t = s ∨ targetSeen seen t

theorem stable_targetSeen : Stable (seenRely seen) (targetSeen seen) := by
  rintro s t (rfl | ht) hs
  · exact hs
  · exact ht

theorem targetSeen_of_keeps {s t : HubWorld} (h : t.publishTarget = s.publishTarget)
    (hs : targetSeen seen s) : targetSeen seen t := by
  rw [targetSeen, h]
  exact hs

theorem holds_cleanupQuietly (candidate : HubLandingCandidate) :
    Prog.Holds (seenRely seen) (targetSeen seen) (cleanupQuietly candidate) (fun _ => True)
      (fun _ => True) := by
  have hmove : (cleanupHubLandingCandidate candidate).Makes
      (TransactionMove candidate.transactionId candidate.taskId) :=
    move_cleanupHubLandingCandidate rfl
  have hquiet : (cleanupQuietly candidate).Always
      (TransactionMove candidate.transactionId candidate.taskId) :=
    Prog.always_tryCatch hmove.always fun _ => Prog.always_ret ()
  exact Prog.holds_of_always stable_targetSeen hquiet
    (fun s t h hs => targetSeen_of_keeps h.publishTarget hs) (Prog.ends_true _)

theorem holds_revParse {rely : HubWorld → HubWorld → Prop} {K : HubWorld → Prop} {Q : Oid → Prop}
    (hstable : Stable rely K) (ref : String) (read : HubWorld → Option Oid)
    (h : ∀ t, K t → ∀ v ∈ read t, Q v) :
    Prog.Holds rely K (revParse ref read) Q (fun _ => True) := by
  refine Prog.holds_act hstable (fun _ ht => ht) fun t ht => ?_
  cases hread : read t with
  | none => exact ⟨fun _ _ => trivial⟩
  | some v => exact Prog.holds_ret (h t ht v hread)

theorem holds_ensureHubLandingPolicy (call : HubCall) (hostTargetBranch : String) :
    Prog.Holds (seenRely seen) (targetSeen seen)
      (ensureHubLandingPolicy git call hostTargetBranch) (fun _ => True) (fun _ => True) := by
  have htarget : ∀ headOid, Prog.Holds (seenRely seen) (targetSeen seen)
      (ensurePublishTarget headOid) (fun _ => True) (fun _ => True) := by
    intro headOid
    refine Prog.holds_modify stable_targetSeen ?_
    rintro t ⟨v, hv, hseen⟩
    refine ⟨v, ?_, hseen⟩
    rw [hv]
    rfl
  have hfence : Prog.Holds (seenRely seen) (targetSeen seen) (ensureFence git call)
      (fun _ => True) (fun _ => True) :=
    Prog.holds_modify stable_targetSeen fun t ht => targetSeen_of_keeps rfl ht
  have hhead : Prog.Holds (seenRely seen) (targetSeen seen) (revParse "HEAD" fun s => s.head)
      (fun _ => True) (fun _ => True) :=
    holds_revParse stable_targetSeen _ _ fun _ _ _ _ => trivial
  refine Prog.holds_bind (R := fun _ => True)
    (Prog.holds_reads stable_targetSeen fun _ _ => trivial) fun existing _ => ?_
  cases existing with
  | some policy =>
    refine Prog.holds_bind hhead fun headOid _ => ?_
    refine Prog.holds_bind (htarget headOid) fun _ _ => ?_
    exact Prog.holds_bind hfence fun _ _ => Prog.holds_ret trivial
  | none =>
    refine Prog.holds_bind hhead fun headOid _ => ?_
    refine Prog.holds_bind (htarget headOid) fun _ _ => ?_
    refine Prog.holds_bind hfence fun _ _ => ?_
    refine Prog.holds_bind (Prog.holds_modify stable_targetSeen fun t ht => ?_) fun _ _ =>
      Prog.holds_ret trivial
    exact targetSeen_of_keeps rfl ht

/-- The base that a rebuild pins: the predecessor, or a value of the target. -/
def RebuildBase (seen : Oid → Prop) (predecessorOid : Option Oid) (baseOid : Oid) : Prop :=
  match predecessorOid with
  | some predecessor => baseOid = predecessor
  | none => seen baseOid

theorem holds_pinnedBaseOid (input : CreateHubLandingCandidateInput) :
    Prog.Holds (seenRely seen) (targetSeen seen) (pinnedBaseOid input)
      (RebuildBase seen input.baseOid) (fun _ => True) := by
  rw [pinnedBaseOid]
  cases input.baseOid with
  | some predecessor => exact Prog.holds_ret rfl
  | none =>
    refine holds_revParse stable_targetSeen _ _ ?_
    rintro t ⟨v, hv, hseen⟩ w hw
    rw [hv] at hw
    obtain rfl := Option.some.inj hw
    exact hseen

theorem ends_buildHubLandingCandidate (input : CreateHubLandingCandidateInput)
    (transactionId : TransactionId) (sourceOid baseOid : Oid) {Q : HubLandingCandidate → Prop}
    (hbase : ∀ candidate : HubLandingCandidate, candidate.baseOid = baseOid → Q candidate) :
    (buildHubLandingCandidate git input transactionId sourceOid baseOid).Ends Q
      (fun _ => True) := by
  refine Prog.ends_bind (Prog.ends_true _) fun _ _ => ?_
  refine Prog.ends_bind (Prog.ends_true _) fun _ _ => ?_
  refine Prog.ends_bind (Prog.ends_true _) fun _ _ => ?_
  refine Prog.ends_bind (Prog.ends_true _) fun _ _ => ?_
  refine Prog.ends_bind (Prog.ends_true _) fun _ _ => ?_
  refine Prog.ends_bind (Prog.ends_true _) fun _ _ => ?_
  refine Prog.ends_bind (Prog.ends_true _) fun _ _ => ?_
  refine Prog.ends_bind (Prog.ends_true _) fun _ _ => ?_
  refine Prog.ends_bind (Prog.ends_true _) fun _ _ => ?_
  exact Prog.ends_bind (Prog.ends_true _) fun _ _ => hbase _ rfl

theorem meets_createHubLandingCandidate (input : CreateHubLandingCandidateInput) :
    Prog.Meets (seenRely seen) (targetSeen seen) (createHubLandingCandidate git input)
      (fun candidate => RebuildBase seen input.baseOid candidate.baseOid) (fun _ => True) := by
  refine Prog.meets_bind (holds_ensureHubLandingPolicy _ _) fun _ _ => ?_
  refine Prog.meets_bind (holds_revParse (Q := fun _ => True) stable_targetSeen _ _
    fun _ _ _ _ => trivial) fun sourceOid _ => ?_
  refine Prog.meets_bind (holds_pinnedBaseOid input) fun baseOid hbase => ?_
  -- From here on the base is known, whatever the states are.
  refine Prog.meets_of_ends ?_
  refine Prog.ends_bind (Prog.ends_true _) fun existing _ => ?_
  refine Prog.ends_bind (Prog.ends_true _) fun currentRefOid _ => ?_
  refine Prog.ends_bind (Prog.ends_true _) fun _ _ => ?_
  refine Prog.ends_bind (Prog.ends_true _) fun restored _ => ?_
  cases restored with
  | some candidateOid =>
    refine Prog.ends_bind (Prog.ends_true _) fun _ _ => ?_
    exact Prog.ends_bind (Prog.ends_true _) fun _ _ => hbase
  | none =>
    refine ends_buildHubLandingCandidate input _ sourceOid baseOid ?_
    rintro candidate rfl
    exact hbase

theorem meets_rebuildCandidate (session : MergeTaskSession) (predecessorOid : Option Oid)
    (candidate : HubLandingCandidate) :
    Prog.Meets (seenRely seen) (targetSeen seen)
      (rebuildCandidate git session predecessorOid candidate)
      (fun rebuilt => RebuildBase seen predecessorOid rebuilt.baseOid) (fun _ => True) := by
  refine Prog.meets_bind (holds_cleanupQuietly candidate) fun _ _ => ?_
  refine Prog.meets_bind (R := fun _ => True)
    (Prog.holds_reads stable_targetSeen fun _ _ => trivial) fun merge _ => ?_
  exact meets_createHubLandingCandidate _

end Rebuild

/-! ### The next attempt -/

/-- The error does not say that the target has drifted. -/
def HubError.NotDrift : HubError → Prop
  | .pending .targetDrift _ _ => False
  | _ => True

/-- The result does not say that the target has drifted. -/
def HubLandingAttemptResult.NotDrift (attempt : HubLandingAttemptResult) : Prop :=
  ∀ message, attempt.kind ≠ .pending .targetDrift message

/-- Others leave the publish target, and write no lease with the nonce of the call. -/
def stillRely (call : HubCall) (s t : HubWorld) : Prop :=
  t.publishTarget = s.publishTarget ∧
    ∀ lease ∈ t.lease, lease.ownerNonce = call.uuid → s.lease = some lease

/-- The target is at an oid, and a lease of the call expects it there. -/
def stillAt (call : HubCall) (v : Oid) (s : HubWorld) : Prop :=
  s.publishTarget = some v ∧
    ∀ lease ∈ s.lease, lease.ownerNonce = call.uuid → lease.expectedTargetOid = v

section Attempt

variable {call : HubCall} {v : Oid}

theorem stable_stillAt : Stable (stillRely call) (stillAt call v) := by
  rintro s t ⟨htarget, hlease⟩ ⟨hs, hown⟩
  refine ⟨htarget.trans hs, ?_⟩
  intro lease hmem hnonce
  exact hown lease (hlease lease hmem hnonce) hnonce

theorem holds_readStill {α : Type} {Q : α → Prop} {E : HubError → Prop} (f : HubWorld → α)
    (h : ∀ t, stillAt call v t → Q (f t)) :
    Prog.Holds (stillRely call) (stillAt call v) (Prog.reads f) Q E :=
  Prog.holds_reads stable_stillAt h

theorem holds_revParseStill {Q : Oid → Prop} (ref : String) (read : HubWorld → Option Oid)
    (h : ∀ t, stillAt call v t → ∀ w ∈ read t, Q w) :
    Prog.Holds (stillRely call) (stillAt call v) (revParse ref read) Q HubError.NotDrift := by
  refine Prog.holds_act stable_stillAt (fun _ ht => ht) fun t ht => ?_
  cases hread : read t with
  | none => exact ⟨fun _ _ => trivial⟩
  | some w => exact Prog.holds_ret (h t ht w hread)

theorem holds_revParseTarget :
    Prog.Holds (stillRely call) (stillAt call v)
      (revParse "publish target" fun s => s.publishTarget) (fun w => w = v)
      HubError.NotDrift := by
  refine holds_revParseStill _ _ ?_
  rintro t ⟨htarget, -⟩ w hw
  rw [htarget] at hw
  exact (Option.some.inj hw).symm

theorem holds_acquireHubLandingLease :
    Prog.Holds (stillRely call) (stillAt call v) (acquireHubLandingLease call)
      (fun acquired => ∀ lease, acquired = .acquired lease → lease.expectedTargetOid = v)
      HubError.NotDrift := by
  refine Prog.holds_bind (R := fun _ => True) (holds_readStill _ fun _ _ => trivial)
    fun identity _ => ?_
  refine Prog.holds_bind holds_revParseTarget ?_
  rintro observedTargetOid rfl
  refine Prog.holds_bind (R := fun _ => True)
    (holds_revParseStill _ _ fun _ _ _ _ => trivial) fun observedFenceOid _ => ?_
  refine Prog.holds_bind (R := fun _ => True) (holds_readStill _ fun _ _ => trivial)
    fun holder _ => ?_
  cases holder with
  | some owner => exact Prog.holds_ret fun lease h => by cases h
  | none =>
    -- The lease that the call writes has its nonce and the observed target.
    refine Prog.holds_bind (R := fun _ => True)
      (Prog.holds_modify stable_stillAt fun t ht => ?_) fun _ _ => ?_
    · refine ⟨ht.1, fun lease hmem _ => ?_⟩
      obtain rfl := Option.some.inj hmem
      rfl
    refine Prog.holds_bind
      (R := fun confirmed => ∀ lease ∈ confirmed, lease.ownerNonce = call.uuid →
        lease.expectedTargetOid = observedTargetOid)
      (holds_readStill _ fun t ht => ht.2) fun confirmed hconfirmed => ?_
    split
    · rename_i own hown
      refine Prog.holds_ret ?_
      rintro lease h
      obtain rfl := HubLandingLeaseAcquireResult.acquired.inj h
      rw [Option.filter_eq_some_iff] at hown
      exact hconfirmed own hown.1 (beq_iff_eq.mp hown.2)
    · exact Prog.holds_ret fun lease h => by cases h

/-! The commit of a candidate that is based on the target. -/

theorem plainErrors_notDrift : PlainErrors HubError.NotDrift where
  error _ := trivial
  git _ := trivial

theorem holds_assertVerifiedCandidate (candidate : HubLandingCandidate) (fingerprint : String) :
    Prog.Holds (stillRely call) (stillAt call v) (assertVerifiedCandidate candidate fingerprint)
      (fun _ => True) HubError.NotDrift := by
  -- The only step reads the artifact.
  have hreads : (assertVerifiedCandidate candidate fingerprint).Always (fun s t => t = s) := by
    refine Prog.always_bind (Prog.always_reads.mpr fun _ => rfl) fun artifact => ?_
    cases artifact with
    | none => exact Prog.always_raise _
    | some a =>
      by_cases hcand : a.candidateOid = candidate.candidateOid <;>
        by_cases hfp : a.verifierFingerprint = fingerprint <;>
        by_cases hexit : a.exitCode = 0 <;> simp [hcand, hfp, hexit]
  refine Prog.holds_of_always stable_stillAt hreads ?_
    (ends_assertVerifiedCandidate plainErrors_notDrift _ _)
  rintro s _ rfl hs
  exact hs

theorem holds_throwIfPinned {candidate : HubLandingCandidate} {oids : HubLandingOidEvidence}
    (hbase : oids.observedTargetOid = oids.expectedTargetOid) :
    Prog.Holds (stillRely call) (stillAt call v)
      (throwIfPinnedLandingOidsMismatch candidate oids) (fun _ => True) HubError.NotDrift := by
  rw [throwIfPinnedLandingOidsMismatch, if_neg (fun h => h hbase)]
  split
  · exact ⟨fun _ _ => trivial⟩
  · exact Prog.holds_ret trivial

theorem meets_recoverFailedLandingCas (policy : HubLandingPolicy)
    (input : CommitHubLandingTargetInput) {oids : HubLandingOidEvidence}
    (hexpected : oids.expectedTargetOid = v) :
    Prog.Meets (stillRely call) (stillAt call v) (recoverFailedLandingCas policy input oids)
      (fun _ => True) HubError.NotDrift := by
  refine Prog.meets_bind (R := fun _ => True) (holds_readStill _ fun _ _ => trivial)
    fun raced _ => ?_
  split
  · refine Prog.meets_of_ends ?_
    refine Prog.ends_bind (ends_revParse plainErrors_notDrift _ _) fun target _ => ?_
    refine Prog.ends_bind (ends_reads _) fun fence _ => ?_
    exact ends_toTargetLandedCommit policy input _ _ _
  · refine Prog.meets_bind (R := fun w => w = v) (holds_readStill _ ?_) ?_
    · rintro t ⟨htarget, -⟩
      rw [htarget, Option.getD_some]
    rintro observedTargetOid rfl
    refine Prog.meets_of_ends (Prog.ends_bind (ends_reads _) fun fence _ => ?_)
    show HubError.NotDrift (failedLandingCasError _ _)
    rw [failedLandingCasError]
    split
    · trivial
    · rw [if_neg (fun h => h hexpected.symm)]
      trivial

theorem meets_updateRefs {α : Type} (candidate : HubLandingCandidate)
    (expectedTargetOid expectedFenceOid fenceOid : Oid) (receipt : HubStoredReceipt)
    {next : Bool → Hub α} (hpassed : (next true).Ends (fun _ => True) HubError.NotDrift)
    (hfailed : Prog.Meets (stillRely call) (stillAt call v) (next false) (fun _ => True)
      HubError.NotDrift) :
    Prog.Meets (stillRely call) (stillAt call v)
      ((updateRefs candidate expectedTargetOid expectedFenceOid fenceOid receipt).bind next)
      (fun _ => True) HubError.NotDrift := by
  refine Prog.meets_act stable_stillAt fun t ht => ?_
  show (next (t.refTransactionPasses candidate expectedTargetOid expectedFenceOid)).Sat _ _ _ _
  cases hpasses : t.refTransactionPasses candidate expectedTargetOid expectedFenceOid with
  | true => exact (Prog.meets_of_ends (K := fun _ => True) hpassed).sat _ trivial
  | false => exact hfailed.sat _ ht

theorem meets_commitHubLandingTarget (policy : HubLandingPolicy)
    (input : CommitHubLandingTargetInput) (hbase : input.candidate.baseOid = v) :
    Prog.Meets (stillRely call) (stillAt call v) (commitHubLandingTarget git policy input)
      (fun _ => True) HubError.NotDrift := by
  refine Prog.meets_bind (holds_assertVerifiedCandidate _ _) fun _ _ => ?_
  refine Prog.meets_bind (R := fun _ => True) (holds_readStill _ fun _ _ => trivial)
    fun existing _ => ?_
  cases existing with
  | some existing =>
    exact Prog.meets_of_ends
      (ends_commitExistingReceipt plainErrors_notDrift policy input existing)
  | none =>
    refine Prog.meets_bind holds_revParseTarget ?_
    rintro observedTargetOid rfl
    refine Prog.meets_bind (R := fun _ => True)
      (holds_revParseStill _ _ fun _ _ _ _ => trivial) fun observedFenceOid _ => ?_
    refine Prog.meets_bind (holds_throwIfPinned hbase.symm) fun _ _ => ?_
    refine Prog.meets_bind (R := fun _ => True) (holds_readStill _ fun _ _ => trivial)
      fun bootId _ => ?_
    refine meets_updateRefs _ _ _ _ _ (ends_toTargetLandedCommit policy input _ _ _) ?_
    exact meets_recoverFailedLandingCas policy input hbase

theorem meets_landHubCandidateWithLease (policy : HubLandingPolicy)
    (input : LandHubCandidateInput) (hbase : input.candidate.baseOid = v)
    (hlease : input.lease = none) :
    Prog.Meets (stillRely input.call) (stillAt input.call v)
      (landHubCandidateWithLease git policy input) HubLandingAttemptResult.NotDrift
      HubError.NotDrift := by
  have hcommit : ∀ lease, Prog.Meets (stillRely input.call) (stillAt input.call v)
      (commitCandidateWithLease git policy input lease) HubLandingAttemptResult.NotDrift
      HubError.NotDrift := by
    intro lease
    refine Prog.meets_bind_ends (meets_commitHubLandingTarget policy _ hbase) fun commit _ => ?_
    exact fun message h => by cases h
  refine Prog.meets_bind (R := fun _ => True) (holds_readStill _ fun _ _ => trivial)
    fun existing _ => ?_
  split
  · exact hcommit _
  refine Prog.meets_bind (R := fun acquired => ∀ lease, acquired = .acquired lease →
    lease.expectedTargetOid = v) ?_ fun acquired hacquired => ?_
  · rw [leaseForLanding, hlease]
    exact holds_acquireHubLandingLease
  cases acquired with
  | pendingContention owner oids message =>
    exact Prog.meets_of_ends fun message' h => by cases h
  | acquired lease =>
    have hexpected := hacquired lease rfl
    refine Prog.meets_finallyDo ?_ ?_
    · refine Prog.meets_bind (R := fun _ => True) (holds_readStill _ fun _ _ => trivial)
        fun currentLease _ => ?_
      rw [hlease, Option.any_none, if_neg Bool.false_ne_true,
        if_neg (fun h => h (hexpected.trans hbase.symm))]
      refine Prog.meets_tryCatch (hcommit _) fun e he => ?_
      cases e with
      | pending kind message oids =>
        intro message' h
        cases h
        exact he
      | error message => trivial
      | git command => trivial
      | worktree transactionId message => trivial
    · exact ends_releaseHubLandingLease _

end Attempt

/-! ### The rebuilt candidate is on the target -/

/-- The candidate is on a value that the publish target had during the rebuild. So if the target
had one value only, a landing attempt that starts at this value, and has a lease of its own, is
no drift while the target stays still. -/
structure OnTarget (git : Git) (seen : Oid → Prop) (rebuilt : HubLandingCandidate) : Prop where
  base : seen rebuilt.baseOid
  still : ∀ v, (∀ w, seen w → w = v) → ∀ (policy : HubLandingPolicy)
    (input : LandHubCandidateInput), input.candidate.baseOid = rebuilt.baseOid →
    input.lease = none → ∀ u, stillAt input.call v u →
      (landHubCandidateWithLease git policy input).Sat (.among (stillRely input.call))
        (fun attempt _ => attempt.NotDrift) (fun e _ => e.NotDrift) u

/-- The candidate that the default merger rebuilds, while others move the publish target, is on
the target exactly when the task has no predecessor, or one that the target stood at meanwhile. -/
theorem driftRebuild_onTarget_iff (git : Git) (session : MergeTaskSession)
    (predecessorOid : Option Oid) (candidate : HubLandingCandidate) {seen : Oid → Prop}
    {s t : HubWorld} {rebuilt : HubLandingCandidate} (hs : targetSeen seen s)
    (hreach : Prog.Reaches (movesSeen seen)
      (rebuildCandidate git session predecessorOid candidate) s (.ret rebuilt) t) :
    OnTarget git seen rebuilt ↔ ∀ predecessor ∈ predecessorOid, seen predecessor := by
  have hbase : RebuildBase seen predecessorOid rebuilt.baseOid :=
    (meets_rebuildCandidate session predecessorOid candidate).reaches (fun _ => Or.inl rfl)
      (fun _ _ _ _ hmove => Or.inr hmove) hs hreach
  have hseen : seen rebuilt.baseOid ↔ ∀ predecessor ∈ predecessorOid, seen predecessor := by
    cases predecessorOid with
    | none => exact ⟨fun _ _ h => (by cases h), fun _ => hbase⟩
    | some predecessor =>
      have hsame : rebuilt.baseOid = predecessor := hbase
      rw [hsame]
      exact ⟨fun h _ hmem => Option.some.inj hmem ▸ h, fun h => h predecessor rfl⟩
  constructor
  · intro h
    exact hseen.mp h.base
  · intro h
    refine ⟨hseen.mpr h, ?_⟩
    intro v hsingle policy input hinput hlease u hu
    have hv : input.candidate.baseOid = v := hinput.trans (hsingle _ (hseen.mpr h))
    exact (meets_landHubCandidateWithLease policy input hv hlease).sat u hu

def sampleMovedWorld : HubWorld := { sampleBatchWorld with publishTarget := some "ac" }

/-- A task that was built on an earlier merge `"a"` is rebuilt on it again, and the target, which
stays at `"ac"`, has drifted for the next attempt too. -/
theorem predecessor_drifts_again :
    ((rebuildCandidate sampleGit sampleSession (some "a") sampleTaskCandidate).run
        sampleMovedWorld).1.toOption.map (·.baseOid) = some "a" ∧
      (((rebuildCandidate sampleGit sampleSession (some "a") sampleTaskCandidate).bind
        fun rebuilt => landWithLease sampleGit sampleSession rebuilt).run
          sampleMovedWorld).1.toOption.map (·.kind) =
        some (.pending .targetDrift
          "Hub publish target drifted before landing ltx-b-b\x00b\x00a: expected a, found ac.") ∧
      sampleMovedWorld.publishTarget = some "ac" := by
  refine ⟨?_, ?_, rfl⟩
  · decide +kernel
  · decide +kernel

def sampleRebuilt : HubLandingCandidate where
  transactionId := "ltx-b-b\x00b\x00ac"
  taskId := "b"
  branch := "task"
  sourceOid := "b"
  baseOid := "ac"
  candidateOid := "acb"

/-- The first task of a batch is rebuilt on the moved target. -/
theorem driftRebuild_onTarget_iff_first :
    OnTarget sampleGit (fun v => v = "ac") sampleRebuilt := by
  have hrun : (rebuildCandidate sampleGit sampleSession none sampleTaskCandidate).run
      sampleMovedWorld = (.ok sampleRebuilt, (rebuildCandidate sampleGit sampleSession none
        sampleTaskCandidate).exec sampleMovedWorld) := rfl
  have hreach : Prog.Reaches (movesSeen (fun v => v = "ac"))
      (rebuildCandidate sampleGit sampleSession none sampleTaskCandidate) sampleMovedWorld
      (.ret sampleRebuilt) _ := Prog.reaches_run .start hrun
  have hstart : targetSeen (fun v => v = "ac") sampleMovedWorld := ⟨"ac", rfl, rfl⟩
  refine (driftRebuild_onTarget_iff sampleGit sampleSession none sampleTaskCandidate hstart
    hreach).mpr ?_
  intro predecessor h
  cases h

end ArchLoop
