import ArchLoop.World

/-!
# `ArchLoop.Sample`: a small Git for concrete runs

In `sampleGit` an oid spells its own history: `a` is an ancestor of `b` when `b` starts with
`a`. So `"ab"` and `"ac"` are two commits on `"a"`, and ancestry can be computed. The hashes
spell what they hash. The concrete runs of the development use it.
-/

set_option autoImplicit false

namespace ArchLoop

/-- A Git whose oids spell their history. -/
def sampleGit : Git where
  isAncestor a b := decide (a.toList <+: b.toList)
  isAncestor_refl a := by simp
  isAncestor_trans a b c hab hbc := by
    simp only [decide_eq_true_eq] at *
    exact hab.trans hbc
  isAncestor_antisymm a b hab hba := by
    simp only [decide_eq_true_eq] at *
    exact String.toList_injective (hab.eq_of_length_le hba.length_le)
  hashReceipt r := s!"receipt {r.transactionId}"
  hashFence p := s!"fence {p.ownerNonce}"
  hashArtifact a := s!"artifact {a.candidateOid}"
  sha256 text := text
  merge head source := some (head ++ source)
  stripBeadsRuntime _ w := w
  stripBeadsRuntime_clean _ _ h := h

/-- The verifier of the concrete runs. -/
def sampleVerifier : HubVerifierFingerprintParts where
  verifierConfigHash := "config"
  runtimeFingerprint := "runtime"
  verifierFingerprint := "verifier"

/-- A successful artifact of the sample verifier for a candidate. -/
def sampleArtifact (candidateOid : Oid) : HubLandingVerificationArtifact where
  candidateOid := candidateOid
  verifierFingerprint := "verifier"
  verifierConfigHash := some "config"
  runtimeFingerprint := some "runtime"
  exitCode := 0
  outputHash := ""
  createdAt := 0
  artifactHash := some s!"artifact {candidateOid}"

end ArchLoop
