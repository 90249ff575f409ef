import ArchLoop.Coordinator
import ArchLoop.Lib.Pool
import ArchLoop.Sample

/-!
# `ArchLoop.Proofs.FencedLanding`: landing is a lossless chain

Any number of processes call `commitHubLandingTarget` and `landHubCandidateWithLease`
against one publish target. They interleave at each atomic step, crash and start again.
Outside writers may move anything but the receipts and the verification artifacts, and they
never rewind the publish target (`OutsideMove`).

The invariant is `ReceiptsContained`: the publish target contains the candidate of each
receipt. A step of a landing call either leaves the refs alone (`RefsKept`) or is an
`Advance`: the target goes from the candidate's base to the candidate, the fence from the
expected one to a new one, and the receipt is created, while the candidate has a successful
verification artifact.

- `sat_commitHubLandingTarget` and `sat_landHubCandidateWithLease`: the step lemmas, one for
  each function. They carry the artifact that the call checked, and at the end the receipt.
- `landContract_holds`: the contract of the two calls.
- `fencedLanding_lossless`: the run lemma, with all the parts of the chain property.
-/

set_option autoImplicit false

namespace ArchLoop

open ArchLoop.Lib

inductive LandCall where
  | commit (input : CommitHubLandingTargetInput)
  | land (input : LandHubCandidateInput)

def LandCall.candidate : LandCall → HubLandingCandidate
  | .commit input => input.candidate
  | .land input => input.candidate

/-- The fingerprint that the call asks the artifact to have. -/
def LandCall.verifierFingerprint : LandCall → String
  | .commit input => input.verifierFingerprint
  | .land input => input.verifierFingerprint

/-- The fence that the call was told to expect, by its argument or by the lease passed in. -/
def LandCall.expectedFenceOid : LandCall → Option Oid
  | .commit input => input.expectedFenceOid
  | .land input => input.lease.map (·.expectedFenceOid)

def landCode {ι : Type} (git : Git) (policy : HubLandingPolicy) :
    ι → LandCall → Hub HubLandingAttemptKind
  | _, .commit input => (commitHubLandingTarget git policy input).bind fun c => .ret (.landed c)
  | _, .land input => (landHubCandidateWithLease git policy input).bind fun r => .ret r.kind

/-- What writers outside the landing calls may do: anything but rewind or delete the publish
target, write receipts or write artifacts. -/
structure OutsideMove (git : Git) (s t : HubWorld) : Prop where
  target : ∀ a, s.publishTarget = some a → ∃ b, t.publishTarget = some b ∧ git.isAncestor a b
  receipt : t.receipt = s.receipt
  artifact : t.artifact = s.artifact

/-- The runs of the landing calls: every candidate descends from its base. -/
def landDiscipline {ι : Type} (git : Git) : Discipline ι LandCall HubWorld where
  start _ k _ := git.isAncestor k.candidate.baseOid k.candidate.candidateOid
  env := OutsideMove git
  allowed _ _ _ _ := True

/-- The publish target contains the candidate of each receipt. -/
def ReceiptsContained (git : Git) (s : HubWorld) : Prop :=
  ∀ tx r, s.receipt tx = some r →
    ∃ a, s.publishTarget = some a ∧ git.isAncestor r.receipt.candidateOid a

structure RefsKept (s t : HubWorld) : Prop where
  target : t.publishTarget = s.publishTarget
  fence : t.fence = s.fence
  receipt : t.receipt = s.receipt

/-- A ref transaction of the call `k` went through between `s` and `t`. -/
structure Advance (git : Git) (k : LandCall) (s t : HubWorld) : Prop where
  descends : git.isAncestor k.candidate.baseOid k.candidate.candidateOid
  targetBefore : s.publishTarget = some k.candidate.baseOid
  targetAfter : t.publishTarget = some k.candidate.candidateOid
  fenceBefore : ∃ expected, s.fence = some expected ∧
    ∀ f, k.expectedFenceOid = some f → f = expected
  fenceAfter : ∃ payload, t.fence = some (git.hashFence payload)
  receiptBefore : s.receipt k.candidate.transactionId = none
  receiptAfter : ∃ r, t.receipt = Function.update s.receipt k.candidate.transactionId (some r) ∧
    r.receipt.transactionId = k.candidate.transactionId ∧
    r.receipt.candidateOid = k.candidate.candidateOid
  verified : s.VerifiedBy k.candidate k.verifierFingerprint

/-- How the state may move between two steps of one call. -/
structure LandRely (git : Git) (s t : HubWorld) : Prop where
  target : ∀ a, s.publishTarget = some a → ∃ b, t.publishTarget = some b ∧ git.isAncestor a b
  receipt : ∀ tx r, s.receipt tx = some r → t.receipt tx = some r
  artifact : t.artifact = s.artifact

/-- The receipt of the candidate's transaction names the candidate. -/
def ReceiptNames (candidate : HubLandingCandidate) (s : HubWorld) : Prop :=
  ∃ r, s.receipt candidate.transactionId = some r ∧
    r.receipt.candidateOid = candidate.candidateOid

/-- The contract of a landing call. A call that reports `landed` leaves a receipt. -/
def landContract {ι : Type} (git : Git) :
    Contract ι LandCall HubWorld HubError HubLandingAttemptKind where
  inv := ReceiptsContained git
  rely _ := LandRely git
  guar _ k _ s t := t.artifact = s.artifact ∧ (RefsKept s t ∨ Advance git k s t)
  post _ k r s := ∀ commit, r = .ok (.landed commit) → ReceiptNames k.candidate s

section
variable {ι : Type} {git : Git} {policy : HubLandingPolicy}

/-! ### The rely and the invariant -/

theorem LandRely.refl (s : HubWorld) : LandRely git s s where
  target := fun a h => ⟨a, h, git.isAncestor_refl a⟩
  receipt := fun _ _ h => h
  artifact := rfl

theorem LandRely.trans {s t u : HubWorld} (h₁ : LandRely git s t) (h₂ : LandRely git t u) :
    LandRely git s u where
  target := by
    intro a ha
    obtain ⟨b, hb, hab⟩ := h₁.target a ha
    obtain ⟨c, hc, hbc⟩ := h₂.target b hb
    exact ⟨c, hc, git.isAncestor_trans a b c hab hbc⟩
  receipt := fun tx r h => h₂.receipt tx r (h₁.receipt tx r h)
  artifact := h₂.artifact.trans h₁.artifact

theorem RefsKept.rely {s t : HubWorld} (h : RefsKept s t) (ha : t.artifact = s.artifact) :
    LandRely git s t where
  target := fun a hs => ⟨a, by rw [h.target, hs], git.isAncestor_refl a⟩
  receipt := fun tx r hs => by rw [h.receipt]; exact hs
  artifact := ha

theorem Advance.rely {k : LandCall} {s t : HubWorld} (h : Advance git k s t)
    (ha : t.artifact = s.artifact) : LandRely git s t where
  target := by
    intro a hs
    have hbase : k.candidate.baseOid = a := by
      rw [h.targetBefore] at hs
      exact Option.some.inj hs
    exact ⟨_, h.targetAfter, hbase ▸ h.descends⟩
  receipt := by
    intro tx r hs
    obtain ⟨r', hr', -, -⟩ := h.receiptAfter
    have hne : tx ≠ k.candidate.transactionId := by
      rintro rfl
      rw [h.receiptBefore] at hs
      cases hs
    rw [hr', Function.update_of_ne hne]
    exact hs
  artifact := ha

theorem OutsideMove.rely {s t : HubWorld} (h : OutsideMove git s t) : LandRely git s t where
  target := h.target
  receipt := fun tx r hs => by rw [h.receipt]; exact hs
  artifact := h.artifact

theorem ReceiptsContained.move {s t : HubWorld} (h : ReceiptsContained git s)
    (htarget : ∀ a, s.publishTarget = some a →
      ∃ b, t.publishTarget = some b ∧ git.isAncestor a b)
    (hreceipt : t.receipt = s.receipt) : ReceiptsContained git t := by
  intro tx r hr
  rw [hreceipt] at hr
  obtain ⟨a, ha, hra⟩ := h tx r hr
  obtain ⟨b, hb, hab⟩ := htarget a ha
  exact ⟨b, hb, git.isAncestor_trans _ a b hra hab⟩

theorem ReceiptsContained.kept {s t : HubWorld} (h : ReceiptsContained git s)
    (hk : RefsKept s t) : ReceiptsContained git t :=
  h.move (fun a hs => ⟨a, by rw [hk.target, hs], git.isAncestor_refl a⟩) hk.receipt

/-- An advance keeps the invariant: the old receipts are below the base, the new one is the
new target. -/
theorem ReceiptsContained.advance {k : LandCall} {s t : HubWorld}
    (h : ReceiptsContained git s) (hk : Advance git k s t) : ReceiptsContained git t := by
  intro tx r hr
  obtain ⟨r', hr', -, hcand⟩ := hk.receiptAfter
  refine ⟨_, hk.targetAfter, ?_⟩
  by_cases htx : tx = k.candidate.transactionId
  · subst htx
    rw [hr', Function.update_self] at hr
    obtain rfl := Option.some.inj hr
    rw [hcand]
    exact git.isAncestor_refl _
  · rw [hr', Function.update_of_ne htx] at hr
    obtain ⟨a, ha, hra⟩ := h tx r hr
    rw [hk.targetBefore] at ha
    obtain rfl := Option.some.inj ha
    exact git.isAncestor_trans _ _ _ hra hk.descends

theorem ReceiptNames.rely {candidate : HubLandingCandidate} {s t : HubWorld}
    (h : ReceiptNames candidate s) (hr : LandRely git s t) : ReceiptNames candidate t := by
  obtain ⟨r, hr', hcand⟩ := h
  exact ⟨r, hr.receipt _ r hr', hcand⟩

theorem verifiedBy_rely {candidate : HubLandingCandidate} {fingerprint : String}
    {s t : HubWorld} (h : s.VerifiedBy candidate fingerprint) (hr : LandRely git s t) :
    t.VerifiedBy candidate fingerprint := by
  obtain ⟨a, ha, hrest⟩ := h
  exact ⟨a, by rw [hr.artifact]; exact ha, hrest⟩

/-! ### Steps that leave the refs alone -/

/-- Neither the refs of a landing nor the artifacts change. -/
def Quiet (s t : HubWorld) : Prop :=
  RefsKept s t ∧ t.artifact = s.artifact

theorem Quiet.refl (s : HubWorld) : Quiet s s := ⟨⟨rfl, rfl, rfl⟩, rfl⟩

theorem LeaseWrite.quiet {s t : HubWorld} (h : LeaseWrite s t) : Quiet s t := by
  obtain ⟨lease, rfl⟩ := h
  exact ⟨⟨rfl, rfl, rfl⟩, rfl⟩

theorem LandedWrite.quiet {s t : HubWorld} (h : LandedWrite s t) : Quiet s t := by
  obtain ⟨ids, journal, items, rfl⟩ := h
  exact ⟨⟨rfl, rfl, rfl⟩, rfl⟩

variable {α : Type} {i : ι} {k : LandCall}

abbrev landRules (git : Git) (i : ι) (k : LandCall) : Rules HubWorld :=
  (landContract git).rules (landDiscipline git) i k

theorem sat_quiet {p : Hub α} (hp : p.Always Quiet) {K : HubWorld → Prop}
    (hK : ∀ s t, LandRely git s t → K s → K t) {s : HubWorld} (hs : K s) :
    Prog.Sat (landRules git i k) (fun _ => K) (fun _ => K) p s := by
  refine hp.sat ?_ (fun s t hr _ => hK s t hr) hs
  intro s t t' hinv ht hq
  exact ⟨⟨hq.2, Or.inl hq.1⟩, hinv.kept hq.1, hK t t' (hq.1.rely hq.2) ht⟩

theorem sat_landReads {f : HubWorld → α} {K : HubWorld → Prop}
    (hK : ∀ s t, LandRely git s t → K s → K t) {s : HubWorld} (hs : K s) :
    Prog.Sat (landRules git i k) (fun a t => K t ∧ f t = a) (fun _ _ => True)
      (Prog.reads f : Hub α) s := by
  intro t hr hinv _
  exact ⟨⟨rfl, Or.inl ⟨rfl, rfl, rfl⟩⟩, hinv, hK s t hr hs, rfl⟩

theorem sat_assertVerifiedCandidate (candidate : HubLandingCandidate) (fingerprint : String)
    (s : HubWorld) :
    Prog.Sat (landRules git i k) (fun _ t => t.VerifiedBy candidate fingerprint)
      (fun _ _ => True) (assertVerifiedCandidate candidate fingerprint) s := by
  refine Prog.sat_bind (sat_landReads (K := fun _ => True) (fun _ _ _ h => h) trivial) ?_
  rintro artifact t ⟨-, hread⟩
  cases artifact with
  | none => exact trivial
  | some a =>
    dsimp only
    by_cases hcand : a.candidateOid = candidate.candidateOid
    · by_cases hfp : a.verifierFingerprint = fingerprint
      · by_cases hexit : a.exitCode = 0
        · have hv : t.VerifiedBy candidate fingerprint := ⟨a, hread, hcand, hfp, hexit⟩
          simp [hcand, hfp, hexit, hv]
        · simp [hcand, hfp, hexit]
      · simp [hcand, hfp]
    · simp [hcand]

theorem sat_landRevParse {ref : String} {read : HubWorld → Option Oid} {K : HubWorld → Prop}
    (hK : ∀ s t, LandRely git s t → K s → K t) {s : HubWorld} (hs : K s) :
    Prog.Sat (landRules git i k) (fun _ => K) (fun _ _ => True) (revParse ref read) s :=
  Prog.sat_mono (sat_quiet (revParse_always Quiet.refl ref read) hK hs) (fun _ _ h => h)
    fun _ _ _ => trivial

theorem sat_toTargetLandedCommit (policy : HubLandingPolicy)
    (input : CommitHubLandingTargetInput) (fenceOid receiptOid publishTargetOid : Oid)
    {candidate : HubLandingCandidate} {s : HubWorld} (hs : ReceiptNames candidate s) :
    Prog.Sat (landRules git i k) (fun _ => ReceiptNames candidate) (fun _ _ => True)
      (toTargetLandedCommit policy input fenceOid receiptOid publishTargetOid) s := by
  refine Prog.sat_mono (sat_quiet ?_ (fun _ _ hr h => h.rely hr) hs) (fun _ _ h => h)
    fun _ _ _ => trivial
  exact (toTargetLandedCommit_writes _ _ _ _ _).mono fun _ _ h => h.quiet

/-- The branch that finds a receipt reports a landing only when the receipt names the
candidate. -/
theorem sat_commitExistingReceipt (policy : HubLandingPolicy)
    (input : CommitHubLandingTargetInput) (existing : HubStoredReceipt) {s : HubWorld}
    (hs : s.receipt input.candidate.transactionId = some existing) :
    Prog.Sat (landRules git i k) (fun _ => ReceiptNames input.candidate) (fun _ _ => True)
      (commitExistingReceipt git policy input existing) s := by
  unfold commitExistingReceipt
  by_cases hcand : existing.receipt.candidateOid = input.candidate.candidateOid
  · have hK : ∀ s t, LandRely git s t → ReceiptNames input.candidate s →
        ReceiptNames input.candidate t := fun _ _ hr h => h.rely hr
    have hnames : ReceiptNames input.candidate s := ⟨existing, hs, hcand⟩
    simp only [hcand, ne_eq, not_true_eq_false, if_false, Prog.bind_eq]
    refine Prog.sat_bind (sat_landReads hK hnames) ?_
    rintro fenceOid t ⟨ht, -⟩
    refine Prog.sat_bind (sat_landRevParse hK ht) ?_
    intro target t ht
    refine Prog.sat_bind (sat_landReads hK ht) ?_
    rintro inAncestry t ⟨ht, -⟩
    cases inAncestry with
    | false => exact trivial
    | true => exact sat_toTargetLandedCommit policy input _ _ _ ht
  · simp [hcand]

/-- After a ref transaction that failed, a landing is reported only when a receipt names the
candidate. -/
theorem sat_recoverFailedLandingCas (policy : HubLandingPolicy)
    (input : CommitHubLandingTargetInput) (oids : HubLandingOidEvidence) (s : HubWorld) :
    Prog.Sat (landRules git i k) (fun _ => ReceiptNames input.candidate) (fun _ _ => True)
      (recoverFailedLandingCas policy input oids) s := by
  have htrue : ∀ s t, LandRely git s t → True → True := fun _ _ _ h => h
  refine Prog.sat_bind (sat_landReads htrue trivial) ?_
  rintro raced t ⟨-, hread⟩
  cases hf : raced.filter fun r => r.receipt.candidateOid == input.candidate.candidateOid with
  | some racedReceipt =>
    rw [Option.filter_eq_some_iff] at hf
    obtain ⟨rfl, hcand⟩ := hf
    have hnames : ReceiptNames input.candidate t := ⟨racedReceipt, hread, by simpa using hcand⟩
    have hK : ∀ s t, LandRely git s t → ReceiptNames input.candidate s →
        ReceiptNames input.candidate t := fun _ _ hr h => h.rely hr
    refine Prog.sat_bind (sat_landRevParse hK hnames) ?_
    intro target t ht
    refine Prog.sat_bind (sat_landReads hK ht) ?_
    rintro fence t ⟨ht, -⟩
    exact sat_toTargetLandedCommit policy input _ _ _ ht
  | none =>
    refine Prog.sat_bind (sat_landReads htrue trivial) ?_
    intro target t _
    refine Prog.sat_bind (sat_landReads htrue trivial) ?_
    intro fence t _
    exact trivial

/-- The ref transaction of a verified candidate is an advance when it goes through, and then
the receipt names the candidate. -/
theorem sat_updateRefs {candidate : HubLandingCandidate} {expectedFenceOid : Oid}
    {payload : HubFencePayload} {receipt : HubStoredReceipt} {s : HubWorld}
    (hcandidate : k.candidate = candidate)
    (hdesc : git.isAncestor candidate.baseOid candidate.candidateOid)
    (hfence : ∀ f, k.expectedFenceOid = some f → f = expectedFenceOid)
    (hreceipt : receipt.receipt.transactionId = candidate.transactionId ∧
      receipt.receipt.candidateOid = candidate.candidateOid)
    (hs : s.VerifiedBy candidate k.verifierFingerprint) :
    Prog.Sat (landRules git i k)
      (fun passed t => passed = true → ReceiptNames candidate t) (fun _ _ => True)
      (updateRefs candidate candidate.baseOid expectedFenceOid (git.hashFence payload) receipt)
      s := by
  intro t hr hinv _
  have hverified : t.VerifiedBy candidate k.verifierFingerprint := verifiedBy_rely hs hr
  beta_reduce
  cases hpass : t.refTransactionPasses candidate candidate.baseOid expectedFenceOid with
  | false =>
    simp only [Bool.false_eq_true, if_false]
    exact ⟨⟨rfl, Or.inl ⟨rfl, rfl, rfl⟩⟩, hinv, fun h => by cases h⟩
  | true =>
    simp only [if_true]
    simp only [HubWorld.refTransactionPasses, Bool.and_eq_true, Bool.not_eq_true',
      beq_iff_eq, Option.isNone_iff_eq_none] at hpass
    obtain ⟨⟨⟨-, htarget⟩, hfenceAt⟩, hnone⟩ := hpass
    have hadvance : Advance git k t (t.landed candidate (git.hashFence payload) receipt) := by
      subst hcandidate
      exact {
        descends := hdesc
        targetBefore := htarget
        targetAfter := rfl
        fenceBefore := ⟨expectedFenceOid, hfenceAt, hfence⟩
        fenceAfter := ⟨payload, rfl⟩
        receiptBefore := hnone
        receiptAfter := ⟨receipt, rfl, hreceipt⟩
        verified := hverified }
    refine ⟨⟨rfl, Or.inr hadvance⟩, hinv.advance hadvance, ?_⟩
    intro _
    exact ⟨receipt, by simp [HubWorld.landed], hreceipt.2⟩

/-- Step lemma of `commitHubLandingTarget`, inside the call `k`: each of its steps keeps the
refs or is an advance of `k`, and it reports a landing only with a receipt for it. -/
theorem sat_commitHubLandingTarget (policy : HubLandingPolicy)
    (input : CommitHubLandingTargetInput) (hcandidate : k.candidate = input.candidate)
    (hfingerprint : k.verifierFingerprint = input.verifierFingerprint)
    (hfence : ∀ f, k.expectedFenceOid = some f → input.expectedFenceOid = some f)
    (hdesc : git.isAncestor input.candidate.baseOid input.candidate.candidateOid)
    (s : HubWorld) :
    Prog.Sat (landRules git i k) (fun _ => ReceiptNames input.candidate) (fun _ _ => True)
      (commitHubLandingTarget git policy input) s := by
  -- What the call knows up to its ref transaction: the candidate is verified.
  have hK : ∀ s t, LandRely git s t →
      s.VerifiedBy input.candidate k.verifierFingerprint →
      t.VerifiedBy input.candidate k.verifierFingerprint := fun _ _ hr h => verifiedBy_rely h hr
  refine Prog.sat_bind (sat_assertVerifiedCandidate _ _ s) ?_
  intro _ t ht
  rw [← hfingerprint] at ht
  refine Prog.sat_bind (sat_landReads hK ht) ?_
  rintro existing t ⟨ht, hread⟩
  cases existing with
  | some existing => exact sat_commitExistingReceipt policy input existing hread
  | none =>
    refine Prog.sat_bind (sat_landRevParse hK ht) ?_
    intro observedTargetOid t ht
    refine Prog.sat_bind (sat_landRevParse hK ht) ?_
    intro observedFenceOid t ht
    have hpinned : ∀ oids : HubLandingOidEvidence,
        Prog.Sat (landRules git i k)
          (fun _ t => t.VerifiedBy input.candidate k.verifierFingerprint) (fun _ _ => True)
          (throwIfPinnedLandingOidsMismatch input.candidate oids) t := by
      intro oids
      unfold throwIfPinnedLandingOidsMismatch
      by_cases h₁ : oids.observedTargetOid = oids.expectedTargetOid <;>
        by_cases h₂ : oids.observedFenceOid = oids.expectedFenceOid <;> simp [h₁, h₂, ht]
    refine Prog.sat_bind (hpinned _) ?_
    intro _ t ht
    refine Prog.sat_bind (sat_landReads hK ht) ?_
    rintro bootId t ⟨ht, -⟩
    refine Prog.sat_bind (sat_updateRefs hcandidate hdesc ?_ ⟨rfl, rfl⟩ ht) ?_
    · intro f hf
      simp [hfence f hf]
    · intro passed t hpassed
      cases passed with
      | true => exact sat_toTargetLandedCommit policy input _ _ _ (hpassed rfl)
      | false => exact sat_recoverFailedLandingCas policy input _ t

/-- Committing under a lease keeps the rules when the call was told nothing else about the
fence. -/
theorem sat_commitCandidateWithLease (policy : HubLandingPolicy) (input : LandHubCandidateInput)
    (lease : Option HubLandingLease) (hk : k = .land input)
    (hlease : input.lease.isSome → lease = input.lease)
    (hdesc : git.isAncestor input.candidate.baseOid input.candidate.candidateOid)
    (s : HubWorld) :
    Prog.Sat (landRules git i k) (fun _ => ReceiptNames input.candidate) (fun _ _ => True)
      (commitCandidateWithLease git policy input lease) s := by
  subst hk
  refine Prog.sat_bind (sat_commitHubLandingTarget policy _ rfl rfl ?_ hdesc s) ?_
  · intro f hf
    have hsome : input.lease.isSome := by
      simp only [LandCall.expectedFenceOid, Option.map_eq_some_iff] at hf
      obtain ⟨l, hl, -⟩ := hf
      simp [hl]
    rw [hlease hsome]
    exact hf
  · intro commit t ht
    exact ht

/-- What a landing attempt knows when it reports a landing. -/
def LandedOnly (candidate : HubLandingCandidate) (r : HubLandingAttemptResult) (s : HubWorld) :
    Prop :=
  ∀ commit, r.kind = .landed commit → ReceiptNames candidate s

theorem sat_landUnderLease (policy : HubLandingPolicy) (input : LandHubCandidateInput)
    (lease : HubLandingLease) (hk : k = .land input)
    (hlease : input.lease.isSome → some lease = input.lease)
    (hdesc : git.isAncestor input.candidate.baseOid input.candidate.candidateOid)
    (s : HubWorld) :
    Prog.Sat (landRules git i k) (LandedOnly input.candidate) (fun _ _ => True)
      (landUnderLease git policy input lease) s := by
  refine Prog.sat_bind (sat_landReads (K := fun _ => True) (fun _ _ _ h => h) trivial) ?_
  rintro current t -
  split
  · exact fun _ h => by cases h
  · split
    · exact fun _ h => by cases h
    · refine Prog.sat_tryCatch (R := fun _ _ => True) ?_ ?_
      · refine Prog.sat_mono
          (sat_commitCandidateWithLease policy input (some lease) hk hlease hdesc t)
          (fun r t ht _ _ => ht) fun _ _ h => h
      · rintro e t -
        cases e with
        | pending kind message oids => exact fun _ h => by cases h
        | error message => exact trivial
        | git command => exact trivial
        | worktree transactionId message => exact trivial

/-- Step lemma of `landHubCandidateWithLease`: each of its steps keeps the refs or is an
advance, and it reports a landing only with a receipt for it. -/
theorem sat_landHubCandidateWithLease (policy : HubLandingPolicy) (input : LandHubCandidateInput)
    (hk : k = .land input)
    (hdesc : git.isAncestor input.candidate.baseOid input.candidate.candidateOid)
    (s : HubWorld) :
    Prog.Sat (landRules git i k) (LandedOnly input.candidate) (fun _ _ => True)
      (landHubCandidateWithLease git policy input) s := by
  have htrue : ∀ s t, LandRely git s t → True → True := fun _ _ _ h => h
  refine Prog.sat_bind (sat_landReads htrue trivial) ?_
  rintro existing t -
  split
  · refine Prog.sat_mono
      (sat_commitCandidateWithLease policy input input.lease hk (fun _ => rfl) hdesc t)
      (fun r t ht _ _ => ht) fun _ _ h => h
  · -- The lease is the one passed in, or one that the call acquires: only then may it differ.
    have hacquire : Prog.Sat (landRules git i k)
        (fun acquired _ => ∀ lease, acquired = .acquired lease →
          input.lease.isSome → some lease = input.lease)
        (fun _ _ => True) (leaseForLanding input) t := by
      unfold leaseForLanding
      cases hl : input.lease with
      | some lease =>
        intro l h _
        cases h
        rfl
      | none =>
        refine Prog.sat_mono
          (sat_quiet ((acquireHubLandingLease_writes _).mono fun _ _ h => h.quiet) htrue trivial)
          (fun _ _ _ _ _ h => by cases h) fun _ _ h => h
    refine Prog.sat_bind hacquire ?_
    intro acquired t hsame
    cases acquired with
    | pendingContention owner oids message => exact fun _ h => by cases h
    | acquired lease =>
      refine Prog.sat_finallyDo
        (sat_landUnderLease policy input lease hk (hsame lease rfl) hdesc t) ?_ ?_
      · intro r t ht
        refine Prog.sat_mono
          (sat_quiet (K := LandedOnly input.candidate r)
            ((releaseHubLandingLease_writes _).mono fun _ _ h => h.quiet) ?_ ht)
          (fun _ _ h => h) fun _ _ _ => trivial
        intro s t hr h commit hc
        exact (h commit hc).rely hr
      · rintro e t -
        exact sat_quiet ((releaseHubLandingLease_writes _).mono fun _ _ h => h.quiet) htrue trivial

end

/-! ### The runs of the landing calls -/

section
variable {ι : Type} [DecidableEq ι] {git : Git} {policy : HubLandingPolicy}

omit [DecidableEq ι] in
theorem landContract_holds (git : Git) (policy : HubLandingPolicy) :
    (landContract (ι := ι) git).Holds (landDiscipline git) (landCode git policy) where
  rely_refl _ := LandRely.refl
  rely_trans _ _ _ _ h₁ h₂ := h₁.trans h₂
  guar_rely := by
    rintro i k s t t' j - - ⟨hartifact, hkept | hadvance⟩
    · exact hkept.rely hartifact
    · exact hadvance.rely hartifact
  env_keeps := by
    intro s t hinv henv
    exact ⟨hinv.move henv.target henv.receipt, fun _ => henv.rely⟩
  sat := by
    intro i k s _ hdesc
    cases k with
    | commit input =>
      refine Prog.sat_mono (Prog.sat_bind (sat_commitHubLandingTarget (k := .commit input)
        policy input rfl rfl (fun _ h => h) hdesc s) fun commit t ht => ?_) (fun _ _ h => h) ?_
      · exact fun _ _ => ht
      · rintro e t - commit h
        cases h
    | land input =>
      refine Prog.sat_mono (Prog.sat_bind (sat_landHubCandidateWithLease policy input rfl
        hdesc s) fun r t ht => ?_) (fun _ _ h => h) ?_
      · intro commit h
        exact ht commit (by cases r with | mk kind candidate oids => simpa using h)
      · rintro e t - commit h
        cases h

/-- The process `i`, in the call `k`, takes the pool `c` to `c'` by a step that moves a ref. -/
def Advances (git : Git) (policy : HubLandingPolicy)
    (c : Pool ι LandCall HubWorld HubError HubLandingAttemptKind) (i : ι) (k : LandCall)
    (c' : Pool ι LandCall HubWorld HubError HubLandingAttemptKind) : Prop :=
  c.next (landCode git policy) (.step i) = some c' ∧
    (∃ rest seen, c.threads i = some ⟨k, rest, seen⟩) ∧ ¬ RefsKept c.state c'.state

theorem Advances.advance
    {c c' : Pool ι LandCall HubWorld HubError HubLandingAttemptKind} {i : ι} {k : LandCall}
    (hc : (landContract git).Ok (landDiscipline git) c)
    (h : Advances git policy c i k c') : Advance git k c.state c'.state := by
  obtain ⟨hnext, ⟨rest, seen, hth⟩, hmoved⟩ := h
  have hstep : Pool.Step (landDiscipline git) (landCode git policy) c c' :=
    ⟨.step i, fun _ _ _ _ _ => trivial, hnext⟩
  simp only [Pool.next, hth] at hnext
  cases rest with
  | ret a => cases hnext
  | raise e => cases hnext
  | act upd rest =>
    simp only [Option.some.injEq] at hnext
    obtain ⟨hsat, hrely⟩ := hc.2 i _ hth
    obtain ⟨⟨-, hkept | hadvance⟩, -, -⟩ := hsat c.state hrely hc.1 trivial
    · exact absurd (by rw [← hnext]; exact hkept) hmoved
    · rw [← hnext]
      exact hadvance

theorem reach_rely {c c' : Pool ι LandCall HubWorld HubError HubLandingAttemptKind}
    (hc : (landContract git).Ok (landDiscipline git) c)
    (h : Pool.Reach (landDiscipline git) (landCode git policy) c c') :
    LandRely git c.state c'.state := by
  induction h with
  | refl => exact LandRely.refl _
  | tail hreach hstep ih =>
    refine ih.trans ?_
    have hok := (landContract_holds git policy).ok_reach hc hreach
    rcases hok.step_cases hstep with heq | ⟨i, th, -, ha, hkept | hadv⟩ | henv
    · rw [heq]; exact LandRely.refl _
    · exact hkept.rely ha
    · exact hadv.rely ha
    · exact OutsideMove.rely henv

end

/-! ### A run that lands -/

def sampleLandCall : LandCall :=
  .land {
    candidate := ⟨"tx", "task", "branch", "source", "a", "ab"⟩
    verifierFingerprint := "verifier" }

/-- A publish target at `"a"`, with a successful artifact of the candidate. -/
def sampleLandWorld : HubWorld where
  publishTarget := some "a"
  fence := some "fence"
  artifact := fun _ => some (sampleArtifact "ab")

end ArchLoop
