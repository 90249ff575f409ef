import ArchLoop.PolicyInit

/-!
# `ArchLoop.Proofs.PolicyInit`: policy calls beside each other and beside landings

A call checks that a ref is missing and then writes it, and it reads the policy and later writes the
file, without a lock. `Honors` is what a step should do to the refs and to the policy of the others,
and `Agree` that all calls have returned the same target.

`honored_iff` says in which runs all steps do so: at each write, what the call has checked or read is
still there (`Clear`). Then all calls that have the existing policy, or have written theirs, have the
target of the file (`PolicyInv`).
-/

set_option autoImplicit false

namespace ArchLoop.PolicyInit

/-! ### What the calls should keep -/

structure SameTarget (policy policy' : HubLandingPolicy) : Prop where
  hostTargetBranch : policy.hostTargetBranch = policy'.hostTargetBranch
  publishTargetRef : policy.publishTargetRef = policy'.publishTargetRef
  fenceRef : policy.fenceRef = policy'.fenceRef

theorem SameTarget.refl (policy : HubLandingPolicy) : SameTarget policy policy :=
  ⟨rfl, rfl, rfl⟩

theorem SameTarget.symm {policy policy' : HubLandingPolicy} (h : SameTarget policy policy') :
    SameTarget policy' policy :=
  ⟨h.hostTargetBranch.symm, h.publishTargetRef.symm, h.fenceRef.symm⟩

theorem SameTarget.trans {policy policy' policy'' : HubLandingPolicy}
    (h : SameTarget policy policy') (h' : SameTarget policy' policy'') :
    SameTarget policy policy'' :=
  ⟨h.hostTargetBranch.trans h'.hostTargetBranch, h.publishTargetRef.trans h'.publishTargetRef,
    h.fenceRef.trans h'.fenceRef⟩

/-- The new policy has the target of the old one, and each setting that the call does not name. -/
structure PolicyCall.Keeps (call : PolicyCall) (old new : HubLandingPolicy) : Prop where
  target : SameTarget old new
  publishPolicy : call.configure.bind (·.publishPolicy) = none →
    old.publishPolicy = new.publishPolicy
  remoteTarget : call.configure.bind (·.remoteTarget) = none → old.remoteTarget = new.remoteTarget
  deliveryTimeoutMs : call.configure.bind (·.deliveryTimeoutMs) = none →
    old.deliveryTimeoutMs = new.deliveryTimeoutMs

theorem PolicyCall.keeps_refl (call : PolicyCall) (policy : HubLandingPolicy) :
    call.Keeps policy policy :=
  ⟨.refl policy, fun _ => rfl, fun _ => rfl, fun _ => rfl⟩

theorem PolicyCall.keeps_apply {call : PolicyCall} {input : ConfigureHubLandingPolicyInput}
    (hinput : call.configure = some input) (policy : HubLandingPolicy) :
    call.Keeps policy (input.apply policy) := by
  refine ⟨⟨rfl, rfl, rfl⟩, ?_, ?_, ?_⟩
  all_goals
    intro hnone
    rw [hinput, Option.bind_some] at hnone
    simp [ConfigureHubLandingPolicyInput.apply, hnone, resolveConfiguredRemoteTarget,
      resolveConfiguredDeliveryTimeoutMs]

theorem PolicyCall.Keeps.trans {call : PolicyCall} {old mid new : HubLandingPolicy}
    (h : call.Keeps old mid) (h' : call.Keeps mid new) : call.Keeps old new :=
  ⟨h.target.trans h'.target, fun hnone => (h.publishPolicy hnone).trans (h'.publishPolicy hnone),
    fun hnone => (h.remoteTarget hnone).trans (h'.remoteTarget hnone),
    fun hnone => (h.deliveryTimeoutMs hnone).trans (h'.deliveryTimeoutMs hnone)⟩

theorem PolicyCall.Keeps.symm {call : PolicyCall} {old new : HubLandingPolicy}
    (h : call.Keeps old new) : call.Keeps new old :=
  ⟨h.target.symm, fun hnone => (h.publishPolicy hnone).symm,
    fun hnone => (h.remoteTarget hnone).symm, fun hnone => (h.deliveryTimeoutMs hnone).symm⟩

section
variable {ι : Type} [DecidableEq ι] (targetIdentity : String) (calls : ι → PolicyCall)

/-- What a step should do.

- `refs`: a call changes no ref that exists.
- `policy`: the policy in the file changes only by a call, which keeps the target and the settings
  that it does not name.
- `landing`: no landing is under a policy that was made because the file could not be read. -/
structure Honors (s : PolicyState ι) (step : PolicyStep ι) : Prop where
  refs : ∀ caller readFails, step = .call caller readFails → ∀ ref oid,
    s.world.refs ref = some oid → (s.step targetIdentity calls step).world.refs ref = some oid
  policy : ∀ old new, s.world.file = .policy old →
    (s.step targetIdentity calls step).world.file = .policy new →
    new = old ∨ ∃ caller readFails, step = .call caller readFails ∧ (calls caller).Keeps old new
  landing : ∀ caller candidateOid fenceOid, step = .land caller candidateOid fenceOid →
    ∀ policy, s.phases caller ≠ .done .unread policy

/-- All calls that have returned agree with each other and with the file on the target. -/
structure Agree (s : PolicyState ι) : Prop where
  calls : ∀ caller origin policy caller' origin' policy', s.phases caller = .done origin policy →
    s.phases caller' = .done origin' policy' → SameTarget policy policy'
  file : ∀ caller origin policy policy', s.phases caller = .done origin policy →
    s.world.file = .policy policy' → SameTarget policy policy'

/-- A run keeps the refs and the policy: each step honors them, and the calls agree after each. -/
def Honored (start : PolicyWorld) (steps : List (PolicyStep ι)) : Prop :=
  ∀ before, before <+: steps → Agree (afterSteps targetIdentity calls { world := start } before) ∧
    ∀ step, before ++ [step] <+: steps →
      Honors targetIdentity calls (afterSteps targetIdentity calls { world := start } before) step

/-- What a step meets.

- `publish`, `fence`: the ref that a call writes is still missing, or has that value.
- `write`, `configure`: the file still has, in the target and in each setting that the call does
  not name, what the call has read, or made when it read none.
- `landing`: the call that a landing relies on could read the policy file. -/
structure Clear (s : PolicyState ι) (step : PolicyStep ι) : Prop where
  publish : ∀ caller readFails origin policy headOid, step = .call caller readFails →
    s.phases caller = .writePublish origin policy headOid →
    ∀ oid, s.world.refs policy.publishTargetRef = some oid → oid = headOid
  fence : ∀ caller readFails origin policy, step = .call caller readFails →
    s.phases caller = .writeFence origin policy →
    ∀ oid, s.world.refs policy.fenceRef = some oid → oid = (calls caller).fenceOid
  write : ∀ caller readFails origin policy, step = .call caller readFails →
    s.phases caller = .writePolicy origin policy →
    ∀ current, s.world.file = .policy current → (calls caller).Keeps current policy
  configure : ∀ caller readFails origin policy, step = .call caller readFails →
    s.phases caller = .configure origin policy → ∀ input, (calls caller).configure = some input →
    ∀ current, s.world.file = .policy current → (calls caller).Keeps current policy
  landing : ∀ caller candidateOid fenceOid, step = .land caller candidateOid fenceOid →
    ∀ policy, s.phases caller ≠ .done .unread policy

/-- Nothing disturbs a run between a check or a read and the write that relies on it. -/
def Undisturbed (start : PolicyWorld) (steps : List (PolicyStep ι)) : Prop :=
  ∀ before step, before ++ [step] <+: steps →
    Clear calls (afterSteps targetIdentity calls { world := start } before) step

/-! ### One step -/

variable {targetIdentity calls} {s : PolicyState ι}

theorem updateRef_self (w : PolicyWorld) (ref : String) (oid : Oid) :
    (w.updateRef ref oid).refs ref = some oid :=
  Function.update_self _ _ _

theorem updateRef_keeps {w : PolicyWorld} {ref other : String} {oid old : Oid}
    (hclear : ∀ oid', w.refs ref = some oid' → oid' = oid) (hother : w.refs other = some old) :
    (w.updateRef ref oid).refs other = some old := by
  by_cases hsame : other = ref
  · subst hsame
    rw [updateRef_self, hclear old hother]
  · exact (Function.update_of_ne hsame _ _).trans hother

theorem step_call_world (caller : ι) (readFails : Bool) :
    (s.step targetIdentity calls (.call caller readFails)).world =
      ((s.phases caller).step targetIdentity (calls caller) readFails s.world).2 :=
  rfl

theorem step_file (call : PolicyCall) (readFails : Bool) (w : PolicyWorld) (phase : CallPhase) :
    (phase.step targetIdentity call readFails w).2.file = w.file ∨
      (∃ origin policy, phase = .writePolicy origin policy ∧
        (phase.step targetIdentity call readFails w).2.file = .policy policy) ∨
      ∃ origin policy input, phase = .configure origin policy ∧ call.configure = some input ∧
        (phase.step targetIdentity call readFails w).2.file = .policy (input.apply policy) := by
  cases phase with
  | readPolicy =>
    rw [CallPhase.step]
    split <;> exact Or.inl rfl
  | resolveBranch fileExists =>
    rw [CallPhase.step]
    split <;> exact Or.inl rfl
  | readHead origin policy => exact Or.inl rfl
  | checkPublish origin policy headOid =>
    rw [CallPhase.step]
    split <;> exact Or.inl rfl
  | writePublish origin policy headOid => exact Or.inl rfl
  | checkFence origin policy =>
    rw [CallPhase.step]
    split <;> exact Or.inl rfl
  | ensureFence origin policy =>
    rw [CallPhase.step]
    split <;> exact Or.inl rfl
  | writeFence origin policy => exact Or.inl rfl
  | writePolicy origin policy => exact Or.inr (Or.inl ⟨origin, policy, rfl, rfl⟩)
  | configure origin policy =>
    rw [CallPhase.step]
    cases hinput : call.configure with
    | none => exact Or.inl rfl
    | some input => exact Or.inr (Or.inr ⟨origin, policy, input, rfl, rfl, rfl⟩)
  | done origin policy => exact Or.inl rfl

theorem step_refs (call : PolicyCall) (readFails : Bool) (w : PolicyWorld) (phase : CallPhase) :
    (phase.step targetIdentity call readFails w).2.refs = w.refs ∨
      (∃ origin policy headOid, phase = .writePublish origin policy headOid ∧
        (phase.step targetIdentity call readFails w).2 =
          w.updateRef policy.publishTargetRef headOid) ∨
      ∃ origin policy, phase = .writeFence origin policy ∧
        (phase.step targetIdentity call readFails w).2 =
          w.updateRef policy.fenceRef call.fenceOid := by
  cases phase with
  | readPolicy =>
    rw [CallPhase.step]
    split <;> exact Or.inl rfl
  | resolveBranch fileExists =>
    rw [CallPhase.step]
    split <;> exact Or.inl rfl
  | readHead origin policy => exact Or.inl rfl
  | checkPublish origin policy headOid =>
    rw [CallPhase.step]
    split <;> exact Or.inl rfl
  | writePublish origin policy headOid => exact Or.inr (Or.inl ⟨origin, policy, headOid, rfl, rfl⟩)
  | checkFence origin policy =>
    rw [CallPhase.step]
    split <;> exact Or.inl rfl
  | ensureFence origin policy =>
    rw [CallPhase.step]
    split <;> exact Or.inl rfl
  | writeFence origin policy => exact Or.inr (Or.inr ⟨origin, policy, rfl, rfl⟩)
  | writePolicy origin policy => exact Or.inl rfl
  | configure origin policy =>
    rw [CallPhase.step]
    split <;> exact Or.inl rfl
  | done origin policy => exact Or.inl rfl

theorem file_of_not_call {step : PolicyStep ι}
    (h : ∀ caller readFails, step ≠ .call caller readFails) :
    (s.step targetIdentity calls step).world.file = s.world.file := by
  cases step with
  | call caller readFails => exact absurd rfl (h caller readFails)
  | checkout head hostBranch => rfl
  | land caller candidateOid fenceOid =>
    rw [PolicyState.step]
    split
    · dsimp only
      rw [PolicyWorld.land]
      split <;> rfl
    · rfl

theorem honors_iff (step : PolicyStep ι) :
    Honors targetIdentity calls s step ↔ Clear calls s step := by
  constructor
  · intro h
    refine ⟨?_, ?_, ?_, ?_, h.landing⟩
    · rintro caller readFails origin policy headOid rfl hphase oid hoid
      have hkept := h.refs caller readFails rfl _ oid hoid
      rw [step_call_world, hphase] at hkept
      have hnew := updateRef_self s.world policy.publishTargetRef headOid
      exact Option.some.inj (hkept.symm.trans hnew)
    · rintro caller readFails origin policy rfl hphase oid hoid
      have hkept := h.refs caller readFails rfl _ oid hoid
      rw [step_call_world, hphase] at hkept
      have hnew := updateRef_self s.world policy.fenceRef (calls caller).fenceOid
      exact Option.some.inj (hkept.symm.trans hnew)
    · rintro caller readFails origin policy rfl hphase current hcurrent
      have hnew : (s.step targetIdentity calls (.call caller readFails)).world.file =
          .policy policy := by
        rw [step_call_world, hphase]
        rfl
      rcases h.policy current policy hcurrent hnew with rfl | ⟨other, _, hsame, hkeeps⟩
      · exact PolicyCall.keeps_refl _ _
      · obtain ⟨rfl, -⟩ := PolicyStep.call.inj hsame
        exact hkeeps
    · rintro caller readFails origin policy rfl hphase input hinput current hcurrent
      have hnew : (s.step targetIdentity calls (.call caller readFails)).world.file =
          .policy (input.apply policy) := by
        rw [step_call_world, hphase, CallPhase.step, hinput]
      -- The settings that are not named are those of the policy that was read.
      have hback := (PolicyCall.keeps_apply hinput policy).symm
      rcases h.policy current _ hcurrent hnew with hsame | ⟨other, _, hsame, hkeeps⟩
      · rw [hsame] at hback
        exact hback
      · obtain ⟨rfl, -⟩ := PolicyStep.call.inj hsame
        exact hkeeps.trans hback
  · intro h
    refine ⟨?_, ?_, h.landing⟩
    · rintro caller readFails rfl ref oid hoid
      rw [step_call_world]
      rcases step_refs (calls caller) readFails s.world (s.phases caller) with
        hsame | ⟨origin, policy, headOid, hphase, hwrite⟩ | ⟨origin, policy, hphase, hwrite⟩
      · rw [hsame]
        exact hoid
      · rw [hwrite]
        exact updateRef_keeps (h.publish caller readFails origin policy headOid rfl hphase) hoid
      · rw [hwrite]
        exact updateRef_keeps (h.fence caller readFails origin policy rfl hphase) hoid
    · intro old new hold hnew
      by_cases hcall : ∃ caller readFails, step = .call caller readFails
      · obtain ⟨caller, readFails, rfl⟩ := hcall
        rw [step_call_world] at hnew
        rcases step_file (calls caller) readFails s.world (s.phases caller) with
          hsame | ⟨origin, policy, hphase, hwrite⟩ | ⟨origin, policy, input, hphase, hinput, hwrite⟩
        · exact Or.inl (PolicyFile.policy.inj (hnew.symm.trans (hsame.trans hold)))
        · obtain rfl := PolicyFile.policy.inj (hwrite.symm.trans hnew)
          exact Or.inr ⟨caller, readFails, rfl,
            h.write caller readFails origin policy rfl hphase old hold⟩
        · obtain rfl := PolicyFile.policy.inj (hwrite.symm.trans hnew)
          have hkeeps := h.configure caller readFails origin policy rfl hphase input hinput old hold
          exact Or.inr ⟨caller, readFails, rfl, hkeeps.trans (PolicyCall.keeps_apply hinput policy)⟩
      · have hsame : (s.step targetIdentity calls step).world.file = s.world.file :=
          file_of_not_call fun caller readFails hstep => hcall ⟨caller, readFails, hstep⟩
        exact Or.inl (PolicyFile.policy.inj (hnew.symm.trans (hsame.trans hold)))

/-! ### A run -/

/-- The policy of a call that has read or written it. -/
def CallPhase.settled : CallPhase → Option HubLandingPolicy
  | .readPolicy | .resolveBranch _ | .writePolicy _ _ => none
  | .readHead origin policy | .checkPublish origin policy _ | .writePublish origin policy _ |
    .checkFence origin policy | .ensureFence origin policy | .writeFence origin policy =>
    if origin = .existing then some policy else none
  | .configure _ policy | .done _ policy => some policy

/-- Every settled policy has the target of the file. -/
def PolicyInv (s : PolicyState ι) : Prop :=
  ∀ caller policy, (s.phases caller).settled = some policy →
    ∃ current, s.world.file = .policy current ∧ SameTarget policy current

theorem settled_afterEnsure (call : PolicyCall) (origin : PolicyOrigin)
    (policy : HubLandingPolicy) : (afterEnsure call origin policy).settled = some policy := by
  rw [afterEnsure]
  split
  · rfl
  · split <;> rfl

theorem settled_afterPublish (origin : PolicyOrigin) (policy : HubLandingPolicy) :
    (afterPublish origin policy).settled = if origin = .existing then some policy else none := by
  rw [afterPublish]
  split <;> rename_i horigin <;> simp [CallPhase.settled, horigin]

theorem settled_afterFence (call : PolicyCall) (origin : PolicyOrigin)
    (policy : HubLandingPolicy) : (afterFence call origin policy).settled =
      if origin = .existing then some policy else none := by
  rw [afterFence]
  split
  · exact settled_afterEnsure call origin policy
  · rfl

theorem settled_step (call : PolicyCall) (readFails : Bool) (w : PolicyWorld) (phase : CallPhase)
    {policy : HubLandingPolicy}
    (h : (phase.step targetIdentity call readFails w).1.settled = some policy) :
    phase.settled = some policy ∨ w.file = .policy policy ∨
      (∃ origin, phase = .writePolicy origin policy) ∨
      ∃ origin old input, phase = .configure origin old ∧ call.configure = some input ∧
        policy = input.apply old := by
  cases phase with
  | readPolicy =>
    rw [CallPhase.step] at h
    cases hfile : w.file with
    | absent =>
      rw [hfile] at h
      cases h
    | unreadable =>
      rw [hfile] at h
      cases h
    | policy current =>
      rw [hfile] at h
      cases readFails with
      | true => cases h
      | false =>
        obtain rfl := Option.some.inj h
        exact Or.inr (Or.inl rfl)
  | resolveBranch fileExists =>
    rw [CallPhase.step] at h
    split at h
    · cases fileExists <;> cases h
    · cases h
  | readHead origin current => exact Or.inl h
  | checkPublish origin current headOid =>
    rw [CallPhase.step] at h
    split at h
    · rw [settled_afterPublish] at h
      exact Or.inl h
    · exact Or.inl h
  | writePublish origin current headOid =>
    rw [CallPhase.step, settled_afterPublish] at h
    exact Or.inl h
  | checkFence origin current =>
    rw [CallPhase.step] at h
    split at h
    · rw [settled_afterFence] at h
      exact Or.inl h
    · exact Or.inl h
  | ensureFence origin current =>
    rw [CallPhase.step] at h
    split at h
    · rw [settled_afterFence] at h
      exact Or.inl h
    · exact Or.inl h
  | writeFence origin current =>
    rw [CallPhase.step, settled_afterFence] at h
    exact Or.inl h
  | writePolicy origin current =>
    rw [CallPhase.step, settled_afterEnsure] at h
    obtain rfl := Option.some.inj h
    exact Or.inr (Or.inr (Or.inl ⟨origin, rfl⟩))
  | configure origin current =>
    rw [CallPhase.step] at h
    cases hinput : call.configure with
    | none =>
      rw [hinput] at h
      exact Or.inl h
    | some input =>
      rw [hinput] at h
      obtain rfl := Option.some.inj h
      exact Or.inr (Or.inr (Or.inr ⟨origin, current, input, rfl, rfl, rfl⟩))
  | done origin current => exact Or.inl h

theorem PolicyInv.step (hinv : PolicyInv s) {step : PolicyStep ι} (hclear : Clear calls s step) :
    PolicyInv (s.step targetIdentity calls step) := by
  by_cases hcall : ∃ caller readFails, step = .call caller readFails
  · obtain ⟨caller, readFails, rfl⟩ := hcall
    intro other policy hsettled
    rw [step_call_world]
    replace hsettled : (Function.update s.phases caller
        ((s.phases caller).step targetIdentity (calls caller) readFails s.world).1 other).settled =
          some policy := hsettled
    -- What the file has now, with the target of what it had.
    have hfile : ∀ current, s.world.file = .policy current → ∃ new,
        ((s.phases caller).step targetIdentity (calls caller) readFails s.world).2.file =
          .policy new ∧ SameTarget current new := by
      intro current hcurrent
      rcases step_file (calls caller) readFails s.world (s.phases caller) with
        hsame | ⟨origin, written, hphase, hwrite⟩ | ⟨origin, written, input, hphase, hinput, hwrite⟩
      · exact ⟨current, hsame.trans hcurrent, .refl current⟩
      · exact ⟨written, hwrite,
          (hclear.write caller readFails origin written rfl hphase current hcurrent).target⟩
      · have hkeeps :=
          hclear.configure caller readFails origin written rfl hphase input hinput current hcurrent
        exact ⟨_, hwrite, (hkeeps.trans (PolicyCall.keeps_apply hinput written)).target⟩
    have hkept : ∀ current, s.world.file = .policy current → SameTarget policy current → ∃ new,
        ((s.phases caller).step targetIdentity (calls caller) readFails s.world).2.file =
          .policy new ∧ SameTarget policy new := by
      intro current hcurrent hsame
      obtain ⟨new, hnew, htarget⟩ := hfile current hcurrent
      exact ⟨new, hnew, hsame.trans htarget⟩
    by_cases hother : other = caller
    · subst hother
      rw [Function.update_self] at hsettled
      rcases settled_step (calls other) readFails s.world (s.phases other) hsettled with
        hbefore | hread | ⟨origin, hphase⟩ | ⟨origin, old, input, hphase, hinput, rfl⟩
      · obtain ⟨current, hcurrent, hsame⟩ := hinv other policy hbefore
        exact hkept current hcurrent hsame
      · exact hkept policy hread (.refl policy)
      · rw [hphase]
        exact ⟨policy, rfl, .refl policy⟩
      · rw [hphase, CallPhase.step, hinput]
        exact ⟨input.apply old, rfl, .refl _⟩
    · rw [Function.update_of_ne hother] at hsettled
      obtain ⟨current, hcurrent, hsame⟩ := hinv other policy hsettled
      exact hkept current hcurrent hsame
  · have hnot : ∀ caller readFails, step ≠ .call caller readFails :=
      fun caller readFails hstep => hcall ⟨caller, readFails, hstep⟩
    have hfile : (s.step targetIdentity calls step).world.file = s.world.file :=
      file_of_not_call hnot
    have hphases : (s.step targetIdentity calls step).phases = s.phases := by
      cases step with
      | call caller readFails => exact absurd rfl (hnot caller readFails)
      | checkout head hostBranch => rfl
      | land caller candidateOid fenceOid =>
        rw [PolicyState.step]
        split <;> rfl
    intro other policy hsettled
    rw [hphases] at hsettled
    rw [hfile]
    exact hinv other policy hsettled

omit [DecidableEq ι] in
theorem PolicyInv.agree (hinv : PolicyInv s) : Agree s := by
  constructor
  · intro caller origin policy caller' origin' policy' hdone hdone'
    obtain ⟨current, hcurrent, hsame⟩ := hinv caller policy (by rw [hdone]; rfl)
    obtain ⟨current', hcurrent', hsame'⟩ := hinv caller' policy' (by rw [hdone']; rfl)
    obtain rfl := PolicyFile.policy.inj (hcurrent.symm.trans hcurrent')
    exact hsame.trans hsame'.symm
  · intro caller origin policy policy' hdone hfile
    obtain ⟨current, hcurrent, hsame⟩ := hinv caller policy (by rw [hdone]; rfl)
    obtain rfl := PolicyFile.policy.inj (hcurrent.symm.trans hfile)
    exact hsame

theorem policyInv_after {start : PolicyWorld} {steps : List (PolicyStep ι)}
    (h : Undisturbed targetIdentity calls start steps) {before : List (PolicyStep ι)}
    (hbefore : before <+: steps) :
    PolicyInv (afterSteps targetIdentity calls { world := start } before) := by
  induction before using List.reverseRecOn with
  | nil =>
    intro caller policy hsettled
    cases hsettled
  | append_singleton before step ih =>
    have hinv := ih ((List.prefix_append before [step]).trans hbefore)
    rw [afterSteps, List.foldl_append, List.foldl_cons, List.foldl_nil]
    exact hinv.step (h before step hbefore)

/-- The steps of a run keep the refs and the policy, and its calls agree, exactly when nothing
disturbs it. -/
theorem honored_iff (targetIdentity : String) (calls : ι → PolicyCall) (start : PolicyWorld)
    (steps : List (PolicyStep ι)) :
    Honored targetIdentity calls start steps ↔ Undisturbed targetIdentity calls start steps := by
  constructor
  · intro h before step hprefix
    have hbefore : before <+: steps := (List.prefix_append before [step]).trans hprefix
    exact (honors_iff step).mp ((h before hbefore).2 step hprefix)
  · intro h before hbefore
    refine ⟨(policyInv_after h hbefore).agree, fun step hprefix => ?_⟩
    exact (honors_iff step).mpr (h before step hprefix)

end

/-! ### Sample -/

def twoRuns : Bool → PolicyCall :=
  fun second => { fenceOid := if second then "f2" else "f1" }

/-- The first run finds no publish target. Then the second one creates it and lands a candidate, and
the first run goes on. -/
def landedBetween : List (PolicyStep Bool) :=
  List.replicate 4 (.call false false) ++ List.replicate 8 (.call true false) ++
    [.land true "c1" "f3", .call false false]

/-- The first run moves the publish target from the candidate back to the checkout. -/
theorem landedBetween_moved :
    (afterSteps "project" twoRuns
        { world := { file := .absent, refs := fun _ => none, head := "h0", hostBranch := "main" } }
        landedBetween.dropLast).world.refs "refs/archloop/publish/project" = some "c1" ∧
      ¬Honored "project" twoRuns
        { file := .absent, refs := fun _ => none, head := "h0", hostBranch := "main" }
        landedBetween := by
  have hlanded : (afterSteps "project" twoRuns
      { world := { file := .absent, refs := fun _ => none, head := "h0", hostBranch := "main" } }
      landedBetween.dropLast).world.refs "refs/archloop/publish/project" = some "c1" := by
    decide +kernel
  refine ⟨hlanded, fun h => ?_⟩
  have hprefix : landedBetween.dropLast ++ [.call false false] <+: landedBetween := by
    decide +kernel
  have hkept := ((h landedBetween.dropLast (List.dropLast_prefix _)).2 _ hprefix).refs
    false false rfl _ _ hlanded
  have hmoved : (afterSteps "project" twoRuns
      { world := { file := .absent, refs := fun _ => none, head := "h0", hostBranch := "main" } }
      landedBetween).world.refs "refs/archloop/publish/project" = some "h0" := by
    decide +kernel
  exact absurd (hkept.symm.trans hmoved) (by decide)

end ArchLoop.PolicyInit
