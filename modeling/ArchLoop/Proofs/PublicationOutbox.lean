import ArchLoop.Lib.History
import ArchLoop.Proofs.RemoteSafety

/-!
# `ArchLoop.Proofs.PublicationOutbox`: the life of an outbox item

One process enqueues and projects publications. It may crash between any two of its steps,
and others move the remotes between them.

`OutboxMove` says once what a step does to the outbox and to the remotes, and `ItemStep` what
it does to an item. The rest follows from them by induction on the run:

- an item that succeeded, or whose remote was force-rewritten, stays as it is;
- a push is of an item without an acknowledged push;
- a candidate has one item for each remote branch.

What does not follow is that an acknowledged item succeeds by remote ancestry.
`pushCandidateWithCrashWindows` reads the remote back after the acknowledgement, and records
the success whatever it sees. `Saw` is an auxiliary variable that remembers whether a step has
found the branch at a tip with the candidate, and `Confirms` is the condition under which the
success of an acknowledged item means just that.
-/

set_option autoImplicit false

namespace ArchLoop

open ArchLoop.Lib

/-! ### Items -/

/-- The transaction, the remote branch and the candidate of an item. -/
def HubPublicationOutboxItem.key (item : HubPublicationOutboxItem) :
    TransactionId × String × String × Oid :=
  (item.transactionId, item.remoteName, item.remoteRef, item.candidateOid)

def HubPublicationOutboxItem.acked (item : HubPublicationOutboxItem) : Bool :=
  item.status == .pending && item.ambiguousPushAcknowledged

/-- The pending item waits for an integrity review. -/
def HubPublicationOutboxItem.forceRewritten (item : HubPublicationOutboxItem) : Bool :=
  item.status == .pending && item.pendingReason == some .remoteForceRewriteIntegrity

structure Pushable (item : HubPublicationOutboxItem) : Prop where
  status : item.status = .pending
  unacked : item.ambiguousPushAcknowledged = false
  reason : item.pendingReason ≠ some .remoteForceRewriteIntegrity
  remote : item.isUnsetRemote = false

/-- What one attempt writes for the item `x`.

- `wait`: the reason why it waits. A rewritten item keeps its reason.
- `acknowledge`: Git reports that the push succeeded.
- `succeed`: the published oid contains the candidate. -/
inductive ItemStep (git : Git) (x : HubPublicationOutboxItem) :
    HubPublicationOutboxItem → Prop where
  | wait (reason : HubPublicationPendingReason)
      (keeps : x.pendingReason = some .remoteForceRewriteIntegrity →
        reason = .remoteForceRewriteIntegrity)
      (unset : reason = .noRemoteConfigured → x.isUnsetRemote = true) :
      ItemStep git x (x.pending reason)
  | acknowledge (pushable : Pushable x) : ItemStep git x x.acknowledged
  | succeed (publishedOid : Oid) (reason : x.pendingReason ≠ some .remoteForceRewriteIntegrity)
      (contains : git.isAncestor x.candidateOid publishedOid = true) :
      ItemStep git x (x.succeeded publishedOid)

namespace ItemStep

variable {git : Git} {x y : HubPublicationOutboxItem}

theorem id_eq (h : ItemStep git x y) : y.id = x.id := by
  cases h <;> rfl

theorem key_eq (h : ItemStep git x y) : y.key = x.key := by
  cases h <;> rfl

theorem eq_of_forceRewritten (h : ItemStep git x y) (hx : x.forceRewritten = true) : y = x := by
  simp only [HubPublicationOutboxItem.forceRewritten, Bool.and_eq_true, beq_iff_eq] at hx
  obtain ⟨hstatus, hreason⟩ := hx
  cases h with
  | wait reason keeps unset =>
    rw [keeps hreason]
    unfold HubPublicationOutboxItem.pending
    rw [← hstatus, ← hreason]
  | acknowledge pushable => exact absurd hreason pushable.reason
  | succeed publishedOid reason contains => exact absurd hreason reason

theorem acked_or_succeeded (h : ItemStep git x y) (hx : x.acked = true) :
    y.acked = true ∨ y.status = .succeeded := by
  simp only [HubPublicationOutboxItem.acked, Bool.and_eq_true, beq_iff_eq] at hx
  obtain ⟨hstatus, hacked⟩ := hx
  cases h with
  | wait reason keeps unset =>
    refine Or.inl ?_
    simp [HubPublicationOutboxItem.acked, HubPublicationOutboxItem.pending, hacked]
  | acknowledge pushable => exact Or.inl rfl
  | succeed publishedOid reason contains => exact Or.inr rfl

end ItemStep

/-! ### The outbox -/

/-- A well-formed outbox.

- `ids`: the files have names of their own.
- `keys`: a candidate has at most one item for each remote branch.
- `unset`: the item of a policy without a remote has the id that `enqueue` looks for.
- `pushed`: only an item with a remote is pushed. -/
structure OutboxOk (git : Git) (s : HubWorld) : Prop where
  ids : OutboxWf s
  keys : ∀ x ∈ s.publicationOutbox, ∀ y ∈ s.publicationOutbox, x.key = y.key → x = y
  unset : ∀ x ∈ s.publicationOutbox, x.remoteRef = UNSET_REMOTE_MARKER →
    x.id = resolveHubPublicationId git x.transactionId UNSET_REMOTE_MARKER UNSET_REMOTE_MARKER
      x.candidateOid GIT_ZERO_OID
  pushed : ∀ x ∈ s.publicationOutbox, x.ambiguousPushAcknowledged = true →
    x.isUnsetRemote = false

theorem OutboxOk.congr {git : Git} {s t : HubWorld} (h : OutboxOk git s)
    (ht : t.publicationOutbox = s.publicationOutbox) : OutboxOk git t := by
  refine ⟨?_, ?_, ?_, ?_⟩
  · unfold OutboxWf
    rw [ht]
    exact h.ids
  · rw [ht]
    exact h.keys
  · rw [ht]
    exact h.unset
  · rw [ht]
    exact h.pushed

/-- What a step does to the outbox, the remotes and the trace of pushes.

- `idle`: nothing to the outbox, and no push.
- `push`: the remote takes a push of an item.
- `write`: the record of an attempt on an item.
- `add`: a new item, whose id and key no other item has. -/
inductive OutboxMove (git : Git) (s : HubWorld) : HubWorld → Prop where
  | idle {t : HubWorld} (outbox : t.publicationOutbox = s.publicationOutbox)
      (trace : t.trace = s.trace) : OutboxMove git s t
  | push (x : HubPublicationOutboxItem) (mem : x ∈ s.publicationOutbox) (pushable : Pushable x) :
      OutboxMove git s (s.pushed x)
  | write (x y : HubPublicationOutboxItem) (mem : x ∈ s.publicationOutbox)
      (status : x.status = .pending) (step : ItemStep git x y) :
      OutboxMove git s { s with publicationOutbox := writeItem y s.publicationOutbox }
  | add (y : HubPublicationOutboxItem) (id : ∀ x ∈ s.publicationOutbox, x.id ≠ y.id)
      (key : ∀ x ∈ s.publicationOutbox, x.key ≠ y.key)
      (unacked : y.ambiguousPushAcknowledged = false)
      (unset : y.remoteRef = UNSET_REMOTE_MARKER →
        y.id = resolveHubPublicationId git y.transactionId UNSET_REMOTE_MARKER
          UNSET_REMOTE_MARKER y.candidateOid GIT_ZERO_OID) :
      OutboxMove git s { s with publicationOutbox := writeItem y s.publicationOutbox }

theorem mem_writeItem {item x : HubPublicationOutboxItem}
    {items : List HubPublicationOutboxItem} (h : (items.map (·.id)).Nodup) :
    x ∈ writeItem item items ↔ x = item ∨ x ∈ items ∧ x.id ≠ item.id := by
  induction items with
  | nil => simp [writeItem]
  | cons first rest ih =>
    rw [List.map_cons, List.nodup_cons] at h
    obtain ⟨hfirst, hrest⟩ := h
    have hnot : ∀ y ∈ rest, y.id ≠ first.id := by
      intro y hy heq
      exact hfirst (heq ▸ List.mem_map_of_mem hy)
    simp only [writeItem]
    split
    · rename_i hid
      rw [List.mem_cons]
      constructor
      · rintro (rfl | hx)
        · exact Or.inl rfl
        · exact Or.inr ⟨List.mem_cons_of_mem _ hx, hid ▸ hnot x hx⟩
      · rintro (rfl | ⟨hx, hne⟩)
        · exact Or.inl rfl
        · rcases List.mem_cons.mp hx with rfl | hx
          · exact absurd hid hne
          · exact Or.inr hx
    · rename_i hid
      rw [List.mem_cons, ih hrest, List.mem_cons]
      constructor
      · rintro (rfl | rfl | ⟨hx, hne⟩)
        · exact Or.inr ⟨Or.inl rfl, hid⟩
        · exact Or.inl rfl
        · exact Or.inr ⟨Or.inr hx, hne⟩
      · rintro (rfl | ⟨rfl | hx, hne⟩)
        · exact Or.inr (Or.inl rfl)
        · exact Or.inl rfl
        · exact Or.inr (Or.inr ⟨hx, hne⟩)

section
variable {git : Git} {s t : HubWorld}

theorem OutboxMove.ok (h : OutboxMove git s t) (hs : OutboxOk git s) : OutboxOk git t := by
  cases h with
  | idle outbox trace => exact hs.congr outbox
  | push x mem pushable => exact ⟨hs.ids, hs.keys, hs.unset, hs.pushed⟩
  | write x y mem status step =>
    have hid := step.id_eq
    have hkey := step.key_eq
    have hmem : ∀ z ∈ writeItem y s.publicationOutbox,
        z = y ∨ z ∈ s.publicationOutbox ∧ z.id ≠ x.id := by
      intro z hz
      rw [← hid]
      exact (mem_writeItem hs.ids).mp hz
    refine ⟨nodup_writeItem hs.ids, ?_, ?_, ?_⟩
    · -- Two items with one key: the written one has the key of the old one.
      intro a ha b hb hab
      rcases hmem a ha with rfl | ⟨hold, hne⟩
      · rcases hmem b hb with rfl | ⟨hold, hne⟩
        · rfl
        · rw [hkey] at hab
          exact absurd (congrArg HubPublicationOutboxItem.id (hs.keys x mem b hold hab)).symm hne
      · rcases hmem b hb with rfl | ⟨hold', -⟩
        · rw [hkey] at hab
          exact absurd (congrArg HubPublicationOutboxItem.id (hs.keys a hold x mem hab)) hne
        · exact hs.keys a hold b hold' hab
    · intro z hz hunset
      rcases hmem z hz with rfl | ⟨hz, -⟩
      · cases step <;> exact hs.unset x mem hunset
      · exact hs.unset z hz hunset
    · intro z hz hacked
      rcases hmem z hz with rfl | ⟨hz, -⟩
      · cases step with
        | wait reason keeps unset =>
          have hx := hs.pushed x mem hacked
          have hreason : reason ≠ .noRemoteConfigured := by
            intro heq
            rw [unset heq] at hx
            cases hx
          simp only [HubPublicationOutboxItem.isUnsetRemote, Bool.or_eq_false_iff] at hx ⊢
          refine ⟨?_, hx.2⟩
          simpa [HubPublicationOutboxItem.pending] using hreason
        | acknowledge pushable => exact pushable.remote
        | succeed publishedOid reason contains => cases hacked
      · exact hs.pushed z hz hacked
  | add y id key unacked unset =>
    have hmem : ∀ z ∈ writeItem y s.publicationOutbox, z = y ∨ z ∈ s.publicationOutbox := by
      intro z hz
      rcases (mem_writeItem hs.ids).mp hz with heq | ⟨hz, -⟩
      · exact Or.inl heq
      · exact Or.inr hz
    refine ⟨nodup_writeItem hs.ids, ?_, ?_, ?_⟩
    · intro a ha b hb hab
      rcases hmem a ha with rfl | hold
      · rcases hmem b hb with rfl | hold
        · rfl
        · exact absurd hab.symm (key b hold)
      · rcases hmem b hb with rfl | hold'
        · exact absurd hab (key a hold)
        · exact hs.keys a hold b hold' hab
    · intro z hz hunset
      rcases hmem z hz with rfl | hz
      · exact unset hunset
      · exact hs.unset z hz hunset
    · intro z hz hacked
      rcases hmem z hz with rfl | hz
      · rw [unacked] at hacked
        cases hacked
      · exact hs.pushed z hz hacked

/-- How long what the outbox says lasts.

- `item`: an item keeps its id, transaction, remote branch and candidate.
- `succeeded`, `forceRewritten`: it stays as it is once it succeeded or was rewritten.
- `acked`: once a push is acknowledged, it stays so until the item succeeds. -/
structure Lasts (x y : HubPublicationOutboxItem) : Prop where
  id : y.id = x.id
  key : y.key = x.key
  succeeded : x.status = .succeeded → y = x
  forceRewritten : x.forceRewritten = true → y = x
  acked : x.acked = true → y.acked = true ∨ y.status = .succeeded

theorem Lasts.refl (x : HubPublicationOutboxItem) : Lasts x x :=
  ⟨rfl, rfl, fun _ => rfl, fun _ => rfl, fun h => Or.inl h⟩

theorem Lasts.trans {x y z : HubPublicationOutboxItem} (h₁ : Lasts x y) (h₂ : Lasts y z) :
    Lasts x z where
  id := h₂.id.trans h₁.id
  key := h₂.key.trans h₁.key
  succeeded hx := by
    have hy := h₁.succeeded hx
    rw [h₂.succeeded (hy ▸ hx), hy]
  forceRewritten hx := by
    have hy := h₁.forceRewritten hx
    rw [h₂.forceRewritten (hy ▸ hx), hy]
  acked hx := by
    rcases h₁.acked hx with hy | hy
    · exact h₂.acked hy
    · refine Or.inr ?_
      rw [h₂.succeeded hy]
      exact hy

/-- Step lemma: each item lasts over a step. -/
theorem OutboxMove.lasts (h : OutboxMove git s t) (hs : OutboxOk git s) :
    ∀ x ∈ s.publicationOutbox, ∃ y ∈ t.publicationOutbox, Lasts x y := by
  intro x hx
  cases h with
  | idle outbox trace => exact ⟨x, outbox ▸ hx, .refl x⟩
  | push z mem pushable => exact ⟨x, hx, .refl x⟩
  | write z y mem status step =>
    by_cases hid : x.id = z.id
    · -- The written item is `x`: ids are distinct.
      obtain rfl : x = z := List.inj_on_of_nodup_map hs.ids hx mem hid
      refine ⟨y, (mem_writeItem hs.ids).mpr (Or.inl rfl), step.id_eq, step.key_eq, ?_, ?_, ?_⟩
      · intro hsucceeded
        rw [status] at hsucceeded
        cases hsucceeded
      · exact step.eq_of_forceRewritten
      · exact step.acked_or_succeeded
    · refine ⟨x, (mem_writeItem hs.ids).mpr (Or.inr ⟨hx, ?_⟩), .refl x⟩
      rw [step.id_eq]
      exact hid
  | add y id key unacked unset =>
    exact ⟨x, (mem_writeItem hs.ids).mpr (Or.inr ⟨hx, id x hx⟩), .refl x⟩

end

/-! ### What the Hub has seen -/

def HubWorld.ackedAt (s : HubWorld) (id : String) : Bool :=
  (s.outboxItem id).any (·.acked)

/-- The remote branch of the item is at a tip that contains its candidate. -/
def HubWorld.shows (git : Git) (s : HubWorld) (item : HubPublicationOutboxItem) : Bool :=
  (s.tipOf item).any fun tip => git.isAncestor item.candidateOid tip

/-- For each id of an item: whether a step of the Hub, since the acknowledgement of its push,
has found the remote branch at a tip that contains the candidate. -/
abbrev Saw : Type := String → Bool

/-- How a step from `s` to `t` changes what the Hub has seen. -/
def noteSaw (git : Git) (s t : HubWorld) (saw : Saw) : Saw := fun id =>
  t.ackedAt id && (s.ackedAt id && (saw id || (s.outboxItem id).any fun x => s.shows git x))

section
variable {git : Git} {s : HubWorld} {item : HubPublicationOutboxItem}

theorem outboxItem_of_mem (hs : OutboxWf s) (h : item ∈ s.publicationOutbox) :
    s.outboxItem item.id = some item := by
  cases hfind : s.outboxItem item.id with
  | none =>
    have hnone := List.find?_eq_none.mp hfind item h
    simp at hnone
  | some x =>
    have hx : x ∈ s.publicationOutbox := List.mem_of_find?_eq_some hfind
    have hid : x.id = item.id := by simpa using List.find?_some hfind
    rw [List.inj_on_of_nodup_map hs hx h hid]

theorem noteSaw_of_shows {saw : Saw} (hs : OutboxWf s) (h : item ∈ s.publicationOutbox)
    (hacked : item.acked = true) (hshows : s.shows git item = true) :
    noteSaw git s s saw item.id = true := by
  simp [noteSaw, HubWorld.ackedAt, outboxItem_of_mem hs h, hacked, hshows]

theorem noteSaw_keeps {t : HubWorld} {saw : Saw} (hs : OutboxWf s)
    (h : item ∈ s.publicationOutbox) (ht : t.publicationOutbox = s.publicationOutbox)
    (hacked : item.acked = true) (hsaw : saw item.id = true) :
    noteSaw git s t saw item.id = true := by
  have htacked : t.ackedAt item.id = true := by
    unfold HubWorld.ackedAt HubWorld.outboxItem
    rw [ht]
    show (s.outboxItem item.id).any _ = true
    simp [outboxItem_of_mem hs h, hacked]
  unfold noteSaw
  rw [htacked]
  simp [HubWorld.ackedAt, outboxItem_of_mem hs h, hacked, hsaw]

theorem tip_of_observe {tip : Option Oid}
    (h : (s.remotes item.remoteName).observe item.remoteRef = .ok tip) : s.tipOf item = tip := by
  unfold HubRemote.observe at h
  split at h
  · cases h
  · split at h
    · cases h
    · exact Except.ok.inj h

end

theorem classifyRemoteFailure_ne (stderr : String) :
    classifyRemoteFailure stderr ≠ .noRemoteConfigured := by
  unfold classifyRemoteFailure
  dsimp only
  split
  · exact fun h => nomatch h
  split
  · exact fun h => nomatch h
  split
  · exact fun h => nomatch h
  split <;> exact fun h => nomatch h

theorem observe_error_ne {remote : HubRemote} {remoteRef : String}
    {reason : HubPublicationPendingReason} (h : remote.observe remoteRef = .error reason) :
    reason ≠ .noRemoteConfigured := by
  unfold HubRemote.observe at h
  split at h
  · rw [← Except.error.inj h]
    exact classifyRemoteFailure_ne _
  · split at h
    · rw [← Except.error.inj h]
      exact fun h => nomatch h
    · cases h

/-! ### The runs -/

/-- A publication call. A projection is labelled with the outbox that it starts with. -/
inductive OutboxCall where
  | enqueue (policy : HubLandingPolicy) (transactionId : TransactionId) (taskId : TaskId)
      (candidateOid : Oid) (now : Timestamp)
  | project (before : List HubPublicationOutboxItem)

def outboxCode (git : Git) : Unit → OutboxCall → Hub Unit
  | _, .enqueue policy transactionId taskId candidateOid now => do
    let _item ← enqueueHubPublication git policy transactionId taskId candidateOid now
    return ()
  | _, .project _ => do
    let _items ← projectHubPublicationOutbox git
    return ()

/-- The key of the item that an enqueueing asks for, when it asks for one. -/
def enqueueKey (policy : HubLandingPolicy) (transactionId : TransactionId) (candidateOid : Oid) :
    Option (TransactionId × String × String × Oid) :=
  if !shouldEnqueuePublication policy then none
  else match policy.remoteTarget with
  | none => some (transactionId, UNSET_REMOTE_MARKER, UNSET_REMOTE_MARKER, candidateOid)
  | some remoteTargetValue =>
    (parseHubPublicationRemoteTarget remoteTargetValue).map fun parsed =>
      (transactionId, parsed.remoteName, parsed.remoteRef, candidateOid)

/-- No item of another key has an id of this key: the digests in ids tell them apart. -/
def NoClash (git : Git) (key : TransactionId × String × String × Oid) (s : HubWorld) : Prop :=
  ∀ x ∈ s.publicationOutbox, ∀ expected,
    x.id = resolveHubPublicationId git key.1 key.2.1 key.2.2.1 key.2.2.2 expected → x.key = key

def OutboxCall.Starts (git : Git) (s : HubWorld) : OutboxCall → Prop
  | .enqueue policy transactionId _ candidateOid _ =>
    ∀ key, enqueueKey policy transactionId candidateOid = some key → NoClash git key s
  | .project before => before = s.publicationOutbox

/-- The runs of publication calls, with everything but the outbox moved from outside. -/
def outboxRuns (git : Git)
    (allowed : OutboxCall → HubWorld × Saw → HubWorld × Saw → HubWorld × Saw → Prop) :
    Discipline Unit OutboxCall (HubWorld × Saw) where
  start := fun _ k p => k.Starts git p.1
  env := fun p q =>
    q.1.publicationOutbox = p.1.publicationOutbox ∧ q.1.trace = p.1.trace ∧ q.2 = p.2
  allowed := allowed

/-- The steps of a run in which the remotes answer. -/
def Answers : OutboxCall → HubWorld × Saw → HubWorld × Saw → HubWorld × Saw → Prop :=
  fun _ _ p _ => ∀ x ∈ p.1.publicationOutbox,
    ∃ tip, (p.1.remotes x.remoteName).observe x.remoteRef = .ok tip

/-- The steps of a run in which a projection that acknowledged a push, and reads the remote
back, reads it while the branch contains the candidate. -/
def Confirms (git : Git) :
    OutboxCall → HubWorld × Saw → HubWorld × Saw → HubWorld × Saw → Prop
  | .project before, _, p, q => q.1 = p.1 → ∀ x ∈ p.1.publicationOutbox, x.acked = true →
      (∀ b ∈ before, b.id = x.id → b.acked = false) → p.1.shows git x = true
  | .enqueue .., _, _, _ => True

/-- Only an item that the Hub has seen on the remote goes from acknowledged to succeeded. -/
def SucceedsSeen (p q : HubWorld × Saw) : Prop :=
  ∀ x ∈ p.1.publicationOutbox, x.acked = true → ∀ y ∈ q.1.publicationOutbox, y.id = x.id →
    y.status = .succeeded → p.2 x.id = true

/-- Each acknowledged item waits for an integrity review. -/
def Settled (s : HubWorld) : Prop :=
  ∀ x ∈ s.publicationOutbox, x.acked = true → x.forceRewritten = true

/-- What the calls promise. `A` stands for runs in which the remotes answer, and `C` for runs
in which acknowledged pushes are confirmed. -/
def outboxContract (git : Git) (A C : Prop) :
    Contract Unit OutboxCall (HubWorld × Saw) HubError Unit where
  inv := fun p => OutboxOk git p.1
  rely := fun _ p q => q.1.publicationOutbox = p.1.publicationOutbox ∧ q.2 = p.2
  guar := fun _ _ _ p q => OutboxMove git p.1 q.1 ∧ (C → SucceedsSeen p q)
  post := fun _ k _ p => match k with
    | .enqueue policy transactionId _ candidateOid _ =>
      ∀ key, enqueueKey policy transactionId candidateOid = some key →
        ∃ x ∈ p.1.publicationOutbox, x.key = key
    | .project _ => A → Settled p.1

/-! ### The programs keep the contract -/

/-- What a projection knows of the outbox between two of its steps: the items that are still to
come are there, the settled ones are settled, and there are no others. -/
structure Held (git : Git) (A : Prop) (all : List String) (todo : List HubPublicationOutboxItem)
    (settled : List String) (s : HubWorld) : Prop where
  ok : OutboxOk git s
  todo : ∀ x ∈ todo, x ∈ s.publicationOutbox
  settled : A → ∀ x ∈ s.publicationOutbox, x.id ∈ settled → x.acked = true →
    x.forceRewritten = true
  within : ∀ x ∈ s.publicationOutbox, x.id ∈ all

/-- The item is neither among those to come nor among the settled ones. -/
structure Apart (item : HubPublicationOutboxItem) (todo : List HubPublicationOutboxItem)
    (settled : List String) : Prop where
  todo : ∀ x ∈ todo, x.id ≠ item.id
  settled : item.id ∉ settled

section
variable {git : Git} {A C : Prop}
  {allowed : OutboxCall → HubWorld × Saw → HubWorld × Saw → HubWorld × Saw → Prop}
  {k : OutboxCall} {s : HubWorld × Saw} {all : List String}
  {item y : HubPublicationOutboxItem} {todo : List HubPublicationOutboxItem}
  {settled : List String}

theorem Held.congr {t t' : HubWorld} (h : Held git A all todo settled t)
    (ht : t'.publicationOutbox = t.publicationOutbox) : Held git A all todo settled t' := by
  refine ⟨h.ok.congr ht, ?_, ?_, ?_⟩
  · rw [ht]
    exact h.todo
  · rw [ht]
    exact h.settled
  · rw [ht]
    exact h.within

abbrev outboxRules (git : Git) (A C : Prop)
    (allowed : OutboxCall → HubWorld × Saw → HubWorld × Saw → HubWorld × Saw → Prop)
    (k : OutboxCall) : Rules (HubWorld × Saw) :=
  (outboxContract git A C).rules (outboxRuns git allowed) () k

theorem succeedsSeen_of_outbox {p q : HubWorld × Saw} (hp : OutboxWf p.1)
    (h : q.1.publicationOutbox = p.1.publicationOutbox) : SucceedsSeen p q := by
  intro x hx hacked z hz hid hsucceeded
  rw [h] at hz
  rw [List.inj_on_of_nodup_map hp hz hx hid] at hsucceeded
  simp [HubPublicationOutboxItem.acked, hsucceeded] at hacked

theorem sat_outboxAct {α : Type} {Q : α → HubWorld × Saw → Prop} {upd : HubWorld → HubWorld}
    {next : HubWorld → Hub α}
    (hupd : ∀ w, (upd w).publicationOutbox = w.publicationOutbox ∧ (upd w).trace = w.trace)
    (hs : Held git A all todo settled s.1)
    (h : ∀ w, Held git A all todo settled w →
      (upd w).publicationOutbox = w.publicationOutbox →
      allowed k s (w, s.2) (upd w, noteSaw git w (upd w) s.2) →
      Prog.Sat (outboxRules git A C allowed k) Q (fun _ _ => False)
        ((next w).tracked (noteSaw git)) (upd w, noteSaw git w (upd w) s.2)) :
    Prog.Sat (outboxRules git A C allowed k) Q (fun _ _ => False)
      ((Prog.act upd next).tracked (noteSaw git)) s := by
  rintro ⟨w, saw⟩ ⟨houtbox, rfl⟩ hinv hallowed
  have hok : OutboxOk git w := hinv
  have hmove : OutboxMove git w (upd w) := .idle (hupd w).1 (hupd w).2
  refine ⟨⟨hmove, fun _ => ?_⟩, hmove.ok hok, h w (hs.congr houtbox) (hupd w).1 hallowed⟩
  exact succeedsSeen_of_outbox hok.ids (hupd w).1

theorem sat_outboxRead {α β : Type} {Q : β → HubWorld × Saw → Prop} {f : HubWorld → α}
    {g : α → Hub β} (hs : Held git A all todo settled s.1)
    (h : ∀ w, Held git A all todo settled w →
      allowed k s (w, s.2) (w, noteSaw git w w s.2) →
      Prog.Sat (outboxRules git A C allowed k) Q (fun _ _ => False)
        ((g (f w)).tracked (noteSaw git)) (w, noteSaw git w w s.2)) :
    Prog.Sat (outboxRules git A C allowed k) Q (fun _ _ => False)
      (((Prog.reads f).bind g).tracked (noteSaw git)) s :=
  sat_outboxAct (fun _ => ⟨rfl, rfl⟩) hs fun w hw _ => h w hw

theorem sat_outboxWrite (hstatus : item.status = .pending) (hstep : ItemStep git item y)
    (hs : Held git A all (item :: todo) settled s.1) (hapart : Apart item todo settled)
    (hsaw : C → item.acked = true → y.status = .succeeded → s.2 item.id = true) :
    Prog.Sat (outboxRules git A C allowed k)
      (fun written t => written = y ∧ Held git A all (y :: todo) settled t.1)
      (fun _ _ => False) ((writeOutboxItem y).tracked (noteSaw git)) s := by
  rintro ⟨w, saw⟩ ⟨houtbox, rfl⟩ hinv -
  have hok : OutboxOk git w := hinv
  have hw : Held git A all (item :: todo) settled w := hs.congr houtbox
  have hitem := hw.todo item List.mem_cons_self
  have hmove : OutboxMove git w
      { w with publicationOutbox := writeItem y w.publicationOutbox } :=
    .write item y hitem hstatus hstep
  have hmem : ∀ x ∈ writeItem y w.publicationOutbox,
      x = y ∨ x ∈ w.publicationOutbox ∧ x.id ≠ item.id := by
    intro x hx
    rw [← hstep.id_eq]
    exact (mem_writeItem hok.ids).mp hx
  refine ⟨⟨hmove, fun hC => ?_⟩, hmove.ok hok, rfl, hmove.ok hok, ?_, ?_, ?_⟩
  · -- The only item that may change is the written one.
    intro x hx hacked z hz hid hsucceeded
    rcases hmem z hz with rfl | ⟨hzold, -⟩
    · obtain rfl : x = item :=
        List.inj_on_of_nodup_map hok.ids hx hitem (hid.symm.trans hstep.id_eq)
      exact hsaw hC hacked hsucceeded
    · rw [List.inj_on_of_nodup_map hok.ids hzold hx hid] at hsucceeded
      simp [HubPublicationOutboxItem.acked, hsucceeded] at hacked
  · intro x hx
    rcases List.mem_cons.mp hx with rfl | hx
    · exact (mem_writeItem hok.ids).mpr (Or.inl rfl)
    · refine (mem_writeItem hok.ids).mpr (Or.inr ⟨hw.todo x (List.mem_cons_of_mem _ hx), ?_⟩)
      rw [hstep.id_eq]
      exact hapart.todo x hx
  · intro hA x hx hin hacked
    rcases hmem x hx with rfl | ⟨hold, -⟩
    · rw [hstep.id_eq] at hin
      exact absurd hin hapart.settled
    · exact hw.settled hA x hold hin hacked
  · intro x hx
    rcases hmem x hx with rfl | ⟨hold, -⟩
    · rw [hstep.id_eq]
      exact hw.within item hitem
    · exact hw.within x hold

theorem Held.settle {t : HubWorld} (h : Held git A all (y :: todo) settled t)
    (hy : A → y.acked = true → y.forceRewritten = true) :
    Held git A all todo (y.id :: settled) t := by
  refine ⟨h.ok, fun x hx => h.todo x (List.mem_cons_of_mem _ hx), ?_, h.within⟩
  intro hA x hx hid hacked
  rcases List.mem_cons.mp hid with heq | hid
  · have hyin := h.todo y List.mem_cons_self
    obtain rfl : x = y := List.inj_on_of_nodup_map h.ok.ids hx hyin heq
    exact hy hA hacked
  · exact h.settled hA x hx hid hacked

theorem sat_outboxRecord (hstatus : item.status = .pending) (hstep : ItemStep git item y)
    (hs : Held git A all (item :: todo) settled s.1) (hapart : Apart item todo settled)
    (hsaw : C → item.acked = true → y.status = .succeeded → s.2 item.id = true)
    (hy : A → y.acked = true → y.forceRewritten = true) :
    Prog.Sat (outboxRules git A C allowed k)
      (fun _ t => Held git A all todo (item.id :: settled) t.1)
      (fun _ _ => False) ((writeOutboxItem y).tracked (noteSaw git)) s := by
  refine Prog.sat_mono (sat_outboxWrite hstatus hstep hs hapart hsaw) ?_ fun _ _ h => h
  rintro _ t ⟨-, hheld⟩
  rw [← hstep.id_eq]
  exact hheld.settle hy

theorem sat_outboxPush {lease : Oid} (hpushable : Pushable item)
    (hs : Held git A all (item :: todo) settled s.1) :
    Prog.Sat (outboxRules git A C allowed k)
      (fun _ t => Held git A all (item :: todo) settled t.1)
      (fun _ _ => False) ((pushCandidate git item lease).tracked (noteSaw git)) s := by
  rintro ⟨w, saw⟩ ⟨houtbox, rfl⟩ hinv -
  have hok : OutboxOk git w := hinv
  have hw : Held git A all (item :: todo) settled w := hs.congr houtbox
  have hmove : OutboxMove git w
      (if w.acceptsPush git item lease then w.pushed item else w) := by
    split
    · exact .push item (hw.todo item List.mem_cons_self) hpushable
    · exact .idle rfl rfl
  have hsame : (if w.acceptsPush git item lease then w.pushed item else w).publicationOutbox
      = w.publicationOutbox := by
    split <;> rfl
  exact ⟨⟨hmove, fun _ => succeedsSeen_of_outbox hok.ids hsame⟩, hmove.ok hok, hw.congr hsame⟩

/-! A projection, item by item. -/

variable {before : List HubPublicationOutboxItem}

/-- Reading the remote back. When it does not show the candidate, an item whose push this
projection acknowledged was seen all the same, in runs in which pushes are confirmed. -/
theorem sat_trySucceed (hC : C → ∀ p q r, allowed (.project before) p q r →
      Confirms git (.project before) p q r)
    (hstatus : item.status = .pending)
    (hreason : item.pendingReason ≠ some .remoteForceRewriteIntegrity)
    (hs : Held git A all (item :: todo) settled s.1) (hapart : Apart item todo settled)
    (hmine : ∀ b ∈ before, b.id = item.id → b.acked = false) :
    Prog.Sat (outboxRules git A C allowed (.project before))
      (fun recovered t => match recovered with
        | some _ => Held git A all todo (item.id :: settled) t.1
        | none => Held git A all (item :: todo) settled t.1 ∧
          (C → item.acked = true → t.2 item.id = true))
      (fun _ _ => False) ((trySucceedFromRemoteObservation git item).tracked (noteSaw git)) s := by
  refine sat_outboxRead hs fun w hw hallowed => ?_
  have hitem := hw.todo item List.mem_cons_self
  have hseen : C → item.acked = true → noteSaw git w w s.2 item.id = true := by
    intro hc hacked
    exact noteSaw_of_shows hw.ok.ids hitem hacked (hC hc _ _ _ hallowed rfl item hitem hacked hmine)
  generalize noteSaw git w w s.2 = saw at hseen ⊢
  cases (w.remotes item.remoteName).observe item.remoteRef with
  | error reason => exact ⟨hw, hseen⟩
  | ok tip =>
    cases tip with
    | none => exact ⟨hw, hseen⟩
    | some tip =>
      refine sat_outboxRead (s := (w, saw)) hw fun u hu _ => ?_
      have hitem' := hu.todo item List.mem_cons_self
      have hseen' : C → item.acked = true → noteSaw git u u saw item.id = true :=
        fun hc hacked => noteSaw_keeps hu.ok.ids hitem' rfl hacked (hseen hc hacked)
      cases hcontains : u.remoteContainsCandidate git item.candidateOid (some tip) with
      | false => exact ⟨hu, hseen'⟩
      | true =>
        have hancestor : git.isAncestor item.candidateOid tip = true :=
          HubWorld.isAncestor_sound hcontains
        refine Prog.sat_tracked_bind (sat_outboxRecord hstatus (.succeed tip hreason hancestor)
          hu hapart (fun hc hacked _ => hseen' hc hacked) ?_) fun _ _ h => h
        intro _ hacked
        simp [HubPublicationOutboxItem.acked, HubPublicationOutboxItem.succeeded] at hacked

theorem sat_pushWithCrashWindows (hC : C → ∀ p q r, allowed (.project before) p q r →
      Confirms git (.project before) p q r) {lease : Oid}
    (hpushable : Pushable item) (hs : Held git A all (item :: todo) settled s.1)
    (hapart : Apart item todo settled)
    (hmine : ∀ b ∈ before, b.id = item.id → b.acked = false) :
    Prog.Sat (outboxRules git A C allowed (.project before))
      (fun _ t => Held git A all todo (item.id :: settled) t.1) (fun _ _ => False)
      ((pushCandidateWithCrashWindows git item lease).tracked (noteSaw git)) s := by
  have hnot : item.acked = false := by
    simp [HubPublicationOutboxItem.acked, hpushable.unacked]
  refine Prog.sat_tracked_bind (sat_outboxPush hpushable hs) fun failure t ht => ?_
  cases failure with
  | some stderr =>
    -- The push failed: the item is not acknowledged.
    refine Prog.sat_tracked_bind
      (sat_trySucceed hC hpushable.status hpushable.reason ht hapart hmine) fun recovered u hu => ?_
    cases recovered with
    | some recovered => exact hu
    | none =>
      have hstep : ItemStep git item (item.pending (classifyRemoteFailure stderr)) :=
        .wait _ (fun h => absurd h hpushable.reason)
          fun h => absurd h (classifyRemoteFailure_ne stderr)
      refine sat_outboxRecord hpushable.status hstep hu.1 hapart ?_ ?_
      · intro _ hacked
        rw [hnot] at hacked
        cases hacked
      · intro _ hacked
        simp [HubPublicationOutboxItem.acked, HubPublicationOutboxItem.pending,
          hpushable.unacked] at hacked
  | none =>
    refine Prog.sat_tracked_bind
      (sat_outboxWrite hpushable.status (.acknowledge hpushable) ht hapart ?_) ?_
    · intro _ hacked
      rw [hnot] at hacked
      cases hacked
    rintro _ u ⟨rfl, hu⟩
    -- The acknowledgement is durable. The read-back may record the success.
    have hapart' : Apart item.acknowledged todo settled := ⟨hapart.todo, hapart.settled⟩
    refine Prog.sat_tracked_bind
      (sat_trySucceed hC rfl hpushable.reason hu hapart' hmine) fun confirmed v hv => ?_
    cases confirmed with
    | some confirmed => exact hv
    | none =>
      -- If it does not, the success is recorded all the same.
      have hstep : ItemStep git item.acknowledged (item.acknowledged.succeeded item.candidateOid) :=
        .succeed _ hpushable.reason (git.isAncestor_refl _)
      refine Prog.sat_mono (sat_outboxRecord rfl hstep hv.1 hapart'
        (fun hc hacked _ => hv.2 hc hacked) ?_) (fun _ _ h => h) fun _ _ h => h
      intro _ hacked
      simp [HubPublicationOutboxItem.acked, HubPublicationOutboxItem.succeeded] at hacked

theorem sat_ensureTip {tip : Option Oid} (hs : Held git A all (item :: todo) settled s.1)
    (hseen : ∀ t, tip = some t → git.isAncestor item.candidateOid t = true →
      item.acked = true → s.2 item.id = true) :
    Prog.Sat (outboxRules git A C allowed k)
      (fun _ t => Held git A all (item :: todo) settled t.1 ∧
        ∀ oid, tip = some oid → git.isAncestor item.candidateOid oid = true →
          item.acked = true → t.2 item.id = true)
      (fun _ _ => False) ((ensureTipFetched git item tip).tracked (noteSaw git)) s := by
  cases tip with
  | none => exact ⟨hs, hseen⟩
  | some tip =>
    refine sat_outboxRead hs fun w hw _ => ?_
    have hitem := hw.todo item List.mem_cons_self
    have hseen' : ∀ oid, some tip = some oid → git.isAncestor item.candidateOid oid = true →
        item.acked = true → noteSaw git w w s.2 item.id = true :=
      fun oid ho ha hacked => noteSaw_keeps hw.ok.ids hitem rfl hacked (hseen oid ho ha hacked)
    generalize noteSaw git w w s.2 = saw at hseen' ⊢
    cases w.hasObject tip with
    | true => exact ⟨hw, hseen'⟩
    | false =>
      refine sat_outboxAct (s := (w, saw)) (fun x => ?_) hw fun u hu hsame _ => ?_
      · split <;> exact ⟨rfl, rfl⟩
      · refine ⟨hu.congr hsame, fun oid ho ha hacked => ?_⟩
        exact noteSaw_keeps hu.ok.ids (hu.todo item List.mem_cons_self) hsame hacked
          (hseen' oid ho ha hacked)

theorem sat_projectObserved (hC : C → ∀ p q r, allowed (.project before) p q r →
      Confirms git (.project before) p q r) {tip : Option Oid}
    (hstatus : item.status = .pending)
    (hreason : item.pendingReason ≠ some .remoteForceRewriteIntegrity)
    (hremote : item.isUnsetRemote = false)
    (hs : Held git A all (item :: todo) settled s.1) (hapart : Apart item todo settled)
    (hbefore : ∀ b ∈ before, b.id = item.id → b = item)
    (hseen : ∀ t, tip = some t → git.isAncestor item.candidateOid t = true →
      item.acked = true → s.2 item.id = true) :
    Prog.Sat (outboxRules git A C allowed (.project before))
      (fun _ t => Held git A all todo (item.id :: settled) t.1) (fun _ _ => False)
      ((projectObservedItem git item tip).tracked (noteSaw git)) s := by
  refine Prog.sat_tracked_bind (sat_ensureTip hs hseen) fun _ t ht => ?_
  obtain ⟨ht, hseen⟩ := ht
  refine sat_outboxRead ht fun w hw _ => ?_
  have hitem := hw.todo item List.mem_cons_self
  have hseen' : ∀ oid, tip = some oid → git.isAncestor item.candidateOid oid = true →
      item.acked = true → noteSaw git w w t.2 item.id = true :=
    fun oid ho ha hacked => noteSaw_keeps hw.ok.ids hitem rfl hacked (hseen oid ho ha hacked)
  generalize noteSaw git w w t.2 = saw at hseen' ⊢
  cases hcontains : w.remoteContainsCandidate git item.candidateOid tip with
  | true =>
    cases tip with
    | none => cases hcontains
    | some oid =>
      have hancestor : git.isAncestor item.candidateOid oid = true :=
        HubWorld.isAncestor_sound hcontains
      refine sat_outboxRecord (s := (w, saw)) hstatus (.succeed oid hreason hancestor) hw hapart
        (fun _ hacked _ => hseen' oid rfl hancestor hacked) ?_
      intro _ hacked
      simp [HubPublicationOutboxItem.acked, HubPublicationOutboxItem.succeeded] at hacked
  | false =>
    show Prog.Sat _ _ _ (Prog.tracked _ (if item.ambiguousPushAcknowledged then _ else _)) _
    split
    · -- The acknowledged candidate is gone.
      exact sat_outboxRecord (s := (w, saw)) hstatus (.wait _ (fun _ => rfl) fun h => nomatch h)
        hw hapart (fun _ _ h => nomatch h) fun _ _ => rfl
    · rename_i hnot
      have hunacked : item.ambiguousPushAcknowledged = false := by simpa using hnot
      refine sat_outboxRead (s := (w, saw)) hw fun u hu _ => ?_
      cases u.remoteTipDivergedFromExpectation git item tip with
      | true =>
        refine sat_outboxRecord hstatus (.wait .remoteDiverged (fun h => absurd h hreason)
          fun h => nomatch h) hu hapart (fun _ _ h => nomatch h) fun _ hacked => ?_
        simp [HubPublicationOutboxItem.acked, HubPublicationOutboxItem.pending, hunacked] at hacked
      | false =>
        refine sat_pushWithCrashWindows hC ⟨hstatus, hunacked, hreason, hremote⟩ hu hapart ?_
        intro b hb hid
        rw [hbefore b hb hid]
        simp [HubPublicationOutboxItem.acked, hunacked]

theorem sat_projectOne (hC : C → ∀ p q r, allowed (.project before) p q r →
      Confirms git (.project before) p q r)
    (hA : A → ∀ p q r, allowed (.project before) p q r → Answers (.project before) p q r)
    (hs : Held git A all (item :: todo) settled s.1) (hapart : Apart item todo settled)
    (hbefore : ∀ b ∈ before, b.id = item.id → b = item) :
    Prog.Sat (outboxRules git A C allowed (.project before))
      (fun _ t => Held git A all todo (item.id :: settled) t.1) (fun _ _ => False)
      ((projectOneItem git item).tracked (noteSaw git)) s := by
  unfold projectOneItem
  split
  · rename_i hsucceeded
    refine hs.settle ?_
    intro _ hacked
    simp [HubPublicationOutboxItem.acked, hsucceeded] at hacked
  rename_i hstatus
  have hstatus : item.status = .pending := by
    cases h : item.status with
    | pending => rfl
    | succeeded => exact absurd h hstatus
  split
  · exact sat_outboxRecord hstatus (.wait _ (fun _ => rfl) fun h => nomatch h) hs hapart
      (fun _ _ h => nomatch h) fun _ _ => rfl
  rename_i hreason
  split
  · rename_i hunset
    -- An item without a remote was never pushed.
    have hnot : item.ambiguousPushAcknowledged = false := by
      cases hacked : item.ambiguousPushAcknowledged with
      | false => rfl
      | true =>
        rw [hs.ok.pushed item (hs.todo item List.mem_cons_self) hacked] at hunset
        cases hunset
    refine sat_outboxRecord hstatus (.wait _ (fun h => absurd h hreason) fun _ => hunset) hs
      hapart (fun _ _ h => nomatch h) fun _ hacked => ?_
    simp [HubPublicationOutboxItem.acked, HubPublicationOutboxItem.pending, hnot] at hacked
  · rename_i hremote
    have hremote : item.isUnsetRemote = false := by simpa using hremote
    refine sat_outboxRead hs fun w hw hallowed => ?_
    have hitem := hw.todo item List.mem_cons_self
    cases hobserved : (w.remotes item.remoteName).observe item.remoteRef with
    | error reason =>
      refine sat_outboxRecord (s := (w, noteSaw git w w s.2)) hstatus
        (.wait reason (fun h => absurd h hreason)
          fun h => absurd h (observe_error_ne hobserved)) hw hapart (fun _ _ h => nomatch h) ?_
      intro ha _
      obtain ⟨tip, htip⟩ := hA ha _ _ _ hallowed item hitem
      rw [hobserved] at htip
      cases htip
    | ok tip =>
      refine sat_projectObserved hC hstatus hreason hremote hw hapart hbefore ?_
      intro oid hoid hancestor hacked
      refine noteSaw_of_shows hw.ok.ids hitem hacked ?_
      unfold HubWorld.shows
      rw [tip_of_observe hobserved, hoid]
      exact hancestor

theorem sat_projectAll (hC : C → ∀ p q r, allowed (.project before) p q r →
      Confirms git (.project before) p q r)
    (hA : A → ∀ p q r, allowed (.project before) p q r → Answers (.project before) p q r)
    {items : List HubPublicationOutboxItem} (hs : Held git A all items settled s.1)
    (hids : (items.map (·.id)).Nodup) (hapart : ∀ x ∈ items, x.id ∉ settled)
    (hbefore : ∀ x ∈ items, ∀ b ∈ before, b.id = x.id → b = x) :
    Prog.Sat (outboxRules git A C allowed (.project before))
      (fun _ t => Held git A all [] ((items.map (·.id)).reverse ++ settled) t.1) (fun _ _ => False)
      ((projectItems git items).tracked (noteSaw git)) s := by
  induction items generalizing s settled with
  | nil => exact hs
  | cons item items ih =>
    rw [List.map_cons, List.nodup_cons] at hids
    obtain ⟨hnew, hids⟩ := hids
    have hitem : Apart item items settled := by
      refine ⟨fun x hx heq => ?_, hapart item List.mem_cons_self⟩
      exact hnew (heq ▸ List.mem_map_of_mem hx)
    refine Prog.sat_tracked_bind
      (sat_projectOne hC hA hs hitem (hbefore item List.mem_cons_self)) fun projected t ht => ?_
    have hapart' : ∀ x ∈ items, x.id ∉ item.id :: settled := by
      intro x hx hin
      rcases List.mem_cons.mp hin with heq | hin
      · exact hitem.todo x hx heq
      · exact hapart x (List.mem_cons_of_mem _ hx) hin
    refine Prog.sat_tracked_bind (ih ht hids hapart'
      fun x hx => hbefore x (List.mem_cons_of_mem _ hx)) fun _ u hu => ?_
    simpa using hu

theorem sat_projectOutbox (hC : C → ∀ p q r, allowed (.project before) p q r →
      Confirms git (.project before) p q r)
    (hA : A → ∀ p q r, allowed (.project before) p q r → Answers (.project before) p q r)
    (hok : OutboxOk git s.1) (hbefore : before = s.1.publicationOutbox) :
    Prog.Sat (outboxRules git A C allowed (.project before)) (fun _ t => A → Settled t.1)
      (fun _ _ => False) ((projectHubPublicationOutbox git).tracked (noteSaw git)) s := by
  subst hbefore
  have hs : Held git A (s.1.publicationOutbox.map (·.id)) s.1.publicationOutbox [] s.1 :=
    ⟨hok, fun _ h => h, (fun _ _ _ h => nomatch h), fun _ hx => List.mem_map_of_mem hx⟩
  refine sat_outboxRead hs fun w hw _ => ?_
  have hperm : List.Perm w.outboxItems w.publicationOutbox := List.perm_insertionSort _ _
  have hids : (w.outboxItems.map (·.id)).Nodup :=
    (hperm.map HubPublicationOutboxItem.id).nodup_iff.mpr hw.ok.ids
  have htodo : Held git A (s.1.publicationOutbox.map (·.id)) w.outboxItems [] w :=
    ⟨hw.ok, fun x hx => hperm.mem_iff.mp hx, (fun _ _ _ h => nomatch h), hw.within⟩
  refine Prog.sat_mono (sat_projectAll (s := (w, noteSaw git w w s.2)) hC hA htodo hids
    (fun _ _ h => nomatch h) ?_) ?_ fun _ _ h => h
  · intro x hx b hb hid
    exact List.inj_on_of_nodup_map hw.ok.ids (hw.todo b hb) (hperm.mem_iff.mp hx) hid
  · intro _ t ht ha x hx hacked
    refine ht.settled ha x hx ?_ hacked
    obtain ⟨b, hb, hid⟩ := List.mem_map.mp (ht.within x hx)
    rw [List.append_nil, List.mem_reverse, ← hid]
    exact List.mem_map_of_mem (hperm.mem_iff.mpr (hw.todo b hb))

/-! An enqueueing. -/

/-- A read of an enqueueing, and what follows it. Until it writes its item, an enqueueing
leaves the outbox alone. -/
theorem sat_outboxLook {α β : Type} {Q : β → HubWorld × Saw → Prop} {f : HubWorld → α}
    {g : α → Hub β}
    (h : ∀ w, OutboxOk git w → w.publicationOutbox = s.1.publicationOutbox →
      Prog.Sat (outboxRules git A C allowed k) Q (fun _ _ => False)
        ((g (f w)).tracked (noteSaw git)) (w, noteSaw git w w s.2)) :
    Prog.Sat (outboxRules git A C allowed k) Q (fun _ _ => False)
      (((Prog.reads f).bind g).tracked (noteSaw git)) s := by
  rintro ⟨w, saw⟩ ⟨houtbox, rfl⟩ hinv -
  have hok : OutboxOk git w := hinv
  exact ⟨⟨.idle rfl rfl, fun _ => succeedsSeen_of_outbox hok.ids rfl⟩, hok, h w hok houtbox⟩

theorem sat_outboxAdd (hid : ∀ x ∈ s.1.publicationOutbox, x.id ≠ y.id)
    (hkey : ∀ x ∈ s.1.publicationOutbox, x.key ≠ y.key)
    (hunacked : y.ambiguousPushAcknowledged = false)
    (hunset : y.remoteRef = UNSET_REMOTE_MARKER →
      y.id = resolveHubPublicationId git y.transactionId UNSET_REMOTE_MARKER
        UNSET_REMOTE_MARKER y.candidateOid GIT_ZERO_OID) :
    Prog.Sat (outboxRules git A C allowed k)
      (fun _ t => ∃ x ∈ t.1.publicationOutbox, x.key = y.key) (fun _ _ => False)
      (((writeOutboxItem y).bind fun written => .ret (some written)).tracked (noteSaw git)) s := by
  rintro ⟨w, saw⟩ ⟨houtbox, rfl⟩ hinv -
  have hok : OutboxOk git w := hinv
  have hmove : OutboxMove git w
      { w with publicationOutbox := writeItem y w.publicationOutbox } := by
    refine .add y ?_ ?_ hunacked hunset
    · rw [houtbox]
      exact hid
    · rw [houtbox]
      exact hkey
  refine ⟨⟨hmove, fun _ => ?_⟩, hmove.ok hok, y, (mem_writeItem hok.ids).mpr (Or.inl rfl), rfl⟩
  intro x hx hacked z hz hzid hsucceeded
  rcases (mem_writeItem hok.ids).mp hz with rfl | ⟨hz, -⟩
  · rw [houtbox] at hx
    exact absurd hzid.symm (hid x hx)
  · rw [List.inj_on_of_nodup_map hok.ids hz hx hzid] at hsucceeded
    simp [HubPublicationOutboxItem.acked, hsucceeded] at hacked

end

theorem remoteRef_ne_unset {remoteTarget : String} {parsed : HubPublicationRemoteTarget}
    (h : parseHubPublicationRemoteTarget remoteTarget = some parsed) :
    parsed.remoteRef ≠ UNSET_REMOTE_MARKER := by
  unfold parseHubPublicationRemoteTarget at h
  dsimp only at h
  split at h
  · cases h
  · obtain rfl := Option.some.inj h
    intro heq
    dsimp only at heq
    split at heq
    · rename_i hprefix
      rw [← String.toList_inj, String.toList_ofList] at heq
      rw [heq] at hprefix
      revert hprefix
      decide
    · rw [← String.toList_inj] at heq
      simp [UNSET_REMOTE_MARKER, toString] at heq

section
variable {git : Git} {A C : Prop}
  {allowed : OutboxCall → HubWorld × Saw → HubWorld × Saw → HubWorld × Saw → Prop}
  {k : OutboxCall} {s : HubWorld × Saw}

theorem id_ne_of_outboxItem {w : HubWorld} {id : String} (h : w.outboxItem id = none) :
    ∀ x ∈ w.publicationOutbox, x.id ≠ id := by
  intro x hx heq
  have hnot := List.find?_eq_none.mp h x hx
  simp [heq] at hnot

theorem mem_of_outboxItem {w : HubWorld} {id : String} {x : HubPublicationOutboxItem}
    (h : w.outboxItem id = some x) : x ∈ w.publicationOutbox ∧ x.id = id :=
  ⟨List.mem_of_find?_eq_some h, by simpa using List.find?_some h⟩

theorem sat_enqueue {policy : HubLandingPolicy} {transactionId : TransactionId}
    {taskId : TaskId} {candidateOid : Oid} {now : Timestamp}
    (hclash : ∀ key, enqueueKey policy transactionId candidateOid = some key →
      NoClash git key s.1) :
    Prog.Sat (outboxRules git A C allowed k)
      (fun _ t => ∀ key, enqueueKey policy transactionId candidateOid = some key →
        ∃ x ∈ t.1.publicationOutbox, x.key = key)
      (fun _ _ => False)
      ((enqueueHubPublication git policy transactionId taskId candidateOid now).tracked
        (noteSaw git)) s := by
  cases hshould : shouldEnqueuePublication policy with
  | false =>
    simp only [enqueueHubPublication, enqueueKey, hshould]
    intro _ h
    cases h
  | true =>
  cases hremote : policy.remoteTarget with
  | none =>
    -- Without a remote target, the id depends on nothing that can be observed.
    have hkey : enqueueKey policy transactionId candidateOid =
        some (transactionId, UNSET_REMOTE_MARKER, UNSET_REMOTE_MARKER, candidateOid) := by
      simp [enqueueKey, hshould, hremote]
    have hfree := hclash _ hkey
    simp only [enqueueHubPublication, hshould, hremote, Bool.not_true, Bool.false_eq_true,
      if_false, hkey]
    refine sat_outboxLook fun w hok houtbox => ?_
    cases hitem : w.outboxItem _ with
    | some existing =>
      obtain ⟨hmem, hid⟩ := mem_of_outboxItem hitem
      rintro _ ⟨rfl⟩
      exact ⟨existing, hmem, hfree existing (houtbox ▸ hmem) _ hid⟩
    | none =>
      refine Prog.sat_mono (sat_outboxAdd (s := (w, noteSaw git w w s.2))
        (id_ne_of_outboxItem hitem) ?_ rfl fun _ => rfl) ?_ fun _ _ h => h
      · intro x hx heq
        obtain ⟨htx, -, href, hcandidate⟩ : x.transactionId = transactionId ∧
            x.remoteName = UNSET_REMOTE_MARKER ∧ x.remoteRef = UNSET_REMOTE_MARKER ∧
            x.candidateOid = candidateOid := by
          simpa [HubPublicationOutboxItem.key] using heq
        refine id_ne_of_outboxItem hitem x hx ?_
        rw [hok.unset x hx href, htx, hcandidate]
      · rintro _ t ht _ ⟨rfl⟩
        exact ht
  | some remoteTargetValue =>
  cases hparse : parseHubPublicationRemoteTarget remoteTargetValue with
  | none =>
    simp only [enqueueHubPublication, enqueueKey, hshould, hremote, hparse, Bool.not_true,
      Bool.false_eq_true, if_false]
    intro _ h
    cases h
  | some parsed =>
    have hkey : enqueueKey policy transactionId candidateOid =
        some (transactionId, parsed.remoteName, parsed.remoteRef, candidateOid) := by
      simp [enqueueKey, hshould, hremote, hparse]
    have hfree := hclash _ hkey
    simp only [enqueueHubPublication, hshould, hremote, hparse, Bool.not_true,
      Bool.false_eq_true, if_false, hkey]
    refine sat_outboxLook fun w _ hw => ?_
    generalize noteSaw git w w s.2 = saw
    refine sat_outboxLook (s := (w, saw)) fun u _ hu => ?_
    generalize noteSaw git u u saw = saw
    cases hitem : u.outboxItem _ with
    | some existing =>
      obtain ⟨hmem, hid⟩ := mem_of_outboxItem hitem
      rintro _ ⟨rfl⟩
      refine ⟨existing, hmem, hfree existing ?_ _ hid⟩
      rw [← hw, ← hu]
      exact hmem
    | none =>
      refine sat_outboxLook (s := (u, saw)) fun v _ hv => ?_
      generalize noteSaw git v v saw = saw
      have hkeyOf : ∀ x : HubPublicationOutboxItem,
          (x.transactionId == transactionId && x.remoteName == parsed.remoteName &&
            x.remoteRef == parsed.remoteRef && x.candidateOid == candidateOid) = true ↔
          x.key = (transactionId, parsed.remoteName, parsed.remoteRef, candidateOid) := by
        intro x
        simp [HubPublicationOutboxItem.key, and_assoc]
      have hmem : ∀ x, x ∈ v.outboxItems ↔ x ∈ v.publicationOutbox :=
        fun x => (List.perm_insertionSort _ _).mem_iff
      cases hsibling : v.siblingOutboxItem transactionId parsed candidateOid with
      | some sibling =>
        rintro _ ⟨rfl⟩
        refine ⟨sibling, (hmem _).mp (List.mem_of_find?_eq_some hsibling), ?_⟩
        unfold HubWorld.siblingOutboxItem at hsibling
        have hfound := List.find?_some hsibling
        exact (hkeyOf sibling).mp hfound
      | none =>
        refine Prog.sat_mono (sat_outboxAdd (s := (v, saw)) ?_ ?_ rfl ?_) ?_ fun _ _ h => h
        · intro x hx
          refine id_ne_of_outboxItem hitem x ?_
          rw [← hv]
          exact hx
        · intro x hx heq
          exact List.find?_eq_none.mp hsibling x ((hmem x).mpr hx) ((hkeyOf x).mpr heq)
        · exact fun h => absurd h (remoteRef_ne_unset hparse)
        · rintro _ t ht _ ⟨rfl⟩
          exact ht

theorem outboxContract_holds
    (hA : A → ∀ before p q r, allowed (.project before) p q r → Answers (.project before) p q r)
    (hC : C → ∀ before p q r, allowed (.project before) p q r →
      Confirms git (.project before) p q r) :
    (outboxContract git A C).Holds (outboxRuns git allowed)
      (fun i k => (outboxCode git i k).tracked (noteSaw git)) where
  rely_refl := fun _ _ => ⟨rfl, rfl⟩
  rely_trans := fun _ _ _ _ h₁ h₂ => ⟨h₂.1.trans h₁.1, h₂.2.trans h₁.2⟩
  guar_rely := fun _ _ _ _ _ _ hj => absurd rfl hj
  env_keeps := by
    rintro p q hinv ⟨houtbox, -, hsaw⟩
    have hok : OutboxOk git p.1 := hinv
    exact ⟨hok.congr houtbox, fun _ => ⟨houtbox, hsaw⟩⟩
  sat := by
    intro i k p hinv hstart
    have hok : OutboxOk git p.1 := hinv
    cases k with
    | enqueue policy transactionId taskId candidateOid now =>
      have henqueue : Prog.Sat (outboxRules git A C allowed
          (.enqueue policy transactionId taskId candidateOid now))
          (fun _ t => ∀ key, enqueueKey policy transactionId candidateOid = some key →
            ∃ x ∈ t.1.publicationOutbox, x.key = key) (fun _ _ => False)
          ((outboxCode git () (.enqueue policy transactionId taskId candidateOid now)).tracked
            (noteSaw git)) p :=
        Prog.sat_tracked_bind (sat_enqueue hstart) fun _ _ h => h
      exact Prog.sat_mono henqueue (fun _ _ h => h) fun _ _ h => h.elim
    | project before =>
      have hproject : Prog.Sat (outboxRules git A C allowed (.project before))
          (fun _ t => A → Settled t.1) (fun _ _ => False)
          ((outboxCode git () (.project before)).tracked (noteSaw git)) p :=
        Prog.sat_tracked_bind (sat_projectOutbox (fun hc => hC hc before)
          (fun ha => hA ha before) hok hstart) fun _ _ h => h
      exact Prog.sat_mono hproject (fun _ _ h => h) fun _ _ h => h.elim

end

/-! ### Runs -/

abbrev OutboxPool : Type := Pool Unit OutboxCall (HubWorld × Saw) HubError Unit

/-- The pools that publication runs reach from a world in which nothing was seen yet. -/
abbrev OutboxReach (git : Git)
    (allowed : OutboxCall → HubWorld × Saw → HubWorld × Saw → HubWorld × Saw → Prop) :
    OutboxPool → OutboxPool → Prop :=
  Pool.Reach (outboxRuns git allowed) fun i k => (outboxCode git i k).tracked (noteSaw git)

def anyStep : OutboxCall → HubWorld × Saw → HubWorld × Saw → HubWorld × Saw → Prop :=
  fun _ _ _ _ => True

def outboxStart (s : HubWorld) : OutboxPool := Pool.idle (s, fun _ => false)

section
variable {git : Git} {A C : Prop} {s₀ s t : HubWorld}
  {allowed : OutboxCall → HubWorld × Saw → HubWorld × Saw → HubWorld × Saw → Prop}

theorem outboxMove_of_step {c c' : OutboxPool}
    (hok : (outboxContract git A C).Ok (outboxRuns git allowed) c)
    (hstep : Pool.Step (outboxRuns git allowed)
      (fun i k => (outboxCode git i k).tracked (noteSaw git)) c c') :
    OutboxMove git c.state.1 c'.state.1 := by
  rcases hok.step_cases hstep with heq | ⟨i, th, -, hguar⟩ | henv
  · rw [heq]
    exact .idle rfl rfl
  · exact hguar.1
  · exact .idle henv.1 henv.2.1

/-- Run lemma: each item lasts. -/
theorem outbox_lasts
    (H : (outboxContract git A C).Holds (outboxRuns git allowed)
      fun i k => (outboxCode git i k).tracked (noteSaw git))
    {c c' : OutboxPool} (hok : (outboxContract git A C).Ok (outboxRuns git allowed) c)
    (hc : OutboxReach git allowed c c') :
    ∀ x ∈ c.state.1.publicationOutbox, ∃ y ∈ c'.state.1.publicationOutbox, Lasts x y := by
  induction hc with
  | refl => exact fun x hx => ⟨x, hx, .refl x⟩
  | @tail c₁ c₂ hreach hstep ih =>
    intro x hx
    have hok₁ := H.ok_reach hok hreach
    obtain ⟨y, hy, hxy⟩ := ih x hx
    obtain ⟨z, hz, hyz⟩ := (outboxMove_of_step hok₁ hstep).lasts hok₁.1 y hy
    exact ⟨z, hz, hxy.trans hyz⟩

/-- The next step of the running call pushes the item to a remote that takes it. -/
def IssuesPush (c : OutboxPool) (item : HubPublicationOutboxItem) : Prop :=
  ∃ k upd rest seen remotes replaced, c.threads () = some ⟨k, .act upd rest, seen⟩ ∧
    (upd ({ c.state.1 with remotes := remotes }, c.state.2)).1.trace =
      c.state.1.trace ++ [.remotePush item replaced]

theorem OutboxMove.pushed (h : OutboxMove git s t) {item : HubPublicationOutboxItem}
    {replaced : Option Oid} (hpush : t.trace = s.trace ++ [.remotePush item replaced]) :
    item ∈ s.publicationOutbox ∧ Pushable item := by
  have hnot : s.trace ≠ s.trace ++ [.remotePush item replaced] := by simp
  cases h with
  | idle outbox trace => exact absurd (trace.symm.trans hpush) hnot
  | push x mem pushable =>
    have hlast := List.append_cancel_left hpush
    obtain ⟨rfl, -⟩ := HubEffect.remotePush.inj (List.cons.inj hlast).1
    exact ⟨mem, pushable⟩
  | write x y mem status step => exact absurd hpush hnot
  | add y id key unacked unset => exact absurd hpush hnot

theorem pushable_of_issues
    (H : (outboxContract git A C).Holds (outboxRuns git anyStep)
      fun i k => (outboxCode git i k).tracked (noteSaw git))
    {c : OutboxPool} (hok : (outboxContract git A C).Ok (outboxRuns git anyStep) c)
    {item : HubPublicationOutboxItem} (h : IssuesPush c item) :
    item ∈ c.state.1.publicationOutbox ∧ Pushable item := by
  obtain ⟨k, upd, rest, seen, remotes, replaced, hth, hpush⟩ := h
  -- The others may have moved the remotes there.
  have henv : (outboxRuns git anyStep).Permits c
      (.env ({ c.state.1 with remotes := remotes }, c.state.2)) := ⟨rfl, rfl, rfl⟩
  have hok' := H.ok_next hok henv rfl
  have hnext : Pool.next (fun i k => (outboxCode git i k).tracked (noteSaw git))
      { c with state := ({ c.state.1 with remotes := remotes }, c.state.2) } (.step ()) =
      some ⟨upd ({ c.state.1 with remotes := remotes }, c.state.2), Function.update c.threads ()
        (some ⟨k, rest ({ c.state.1 with remotes := remotes }, c.state.2),
          upd ({ c.state.1 with remotes := remotes }, c.state.2)⟩), c.returns⟩ := by
    simp only [Pool.next, hth]
  obtain ⟨th, -, hguar⟩ := hok'.step_guar (fun _ _ _ _ _ => trivial) hnext
  exact hguar.1.pushed hpush

theorem enqueued_unique {c : OutboxPool} (h₀ : OutboxOk git s₀)
    (H : (outboxContract git False False).Holds (outboxRuns git anyStep)
      fun i k => (outboxCode git i k).tracked (noteSaw git))
    (hc : OutboxReach git anyStep (outboxStart s₀) c) {policy : HubLandingPolicy}
    {transactionId : TransactionId} {taskId : TaskId} {candidateOid : Oid} {now : Timestamp}
    {r : Except HubError Unit}
    (hmem : ((), .enqueue policy transactionId taskId candidateOid now, r) ∈ c.returns)
    {key : TransactionId × String × String × Oid}
    (hkey : enqueueKey policy transactionId candidateOid = some key) :
    ∃! x, x ∈ c.state.1.publicationOutbox ∧ x.key = key := by
  have hstart : (outboxContract git False False).Ok (outboxRuns git anyStep)
      (outboxStart s₀) := Contract.ok_idle h₀
  have hok := H.ok_reach hstart hc
  have hpost := H.returns_post ?_ ?_ hstart (fun _ _ _ h => nomatch h) hc _ _ _ hmem
  · obtain ⟨x, hx, hxkey⟩ := hpost key hkey
    refine ⟨x, ⟨hx, hxkey⟩, ?_⟩
    rintro y ⟨hy, hykey⟩
    exact hok.1.keys y hy x hx (hykey.trans hxkey.symm)
  · rintro i k r p q hp ⟨houtbox, -⟩
    cases k with
    | enqueue policy transactionId taskId candidateOid now =>
      intro key hkey
      rw [houtbox]
      exact hp key hkey
    | project before => exact fun h => h.elim
  · rintro i k r p q q' j l hinv hp ⟨hmove, -⟩
    cases k with
    | enqueue policy transactionId taskId candidateOid now =>
      intro key hkey
      obtain ⟨x, hx, hxkey⟩ := hp key hkey
      obtain ⟨y, hy, hxy⟩ := hmove.lasts hinv x hx
      exact ⟨y, hy, hxy.key.trans hxkey⟩
    | project before => exact fun h => h.elim

/-- The protocol of outbox items. In each run of publication calls, with crashes and with
remotes that others move:

- an item that succeeded or was rewritten stays as it is, and an acknowledged one stays
  acknowledged until it succeeds;
- a push is issued only for a pending item without an acknowledged push;
- an enqueueing that returned has exactly one item of its transaction, remote, ref and
  candidate;
- when the remotes answer, a projection that returns leaves each acknowledged item succeeded or
  rewritten;
- when acknowledged pushes are confirmed, an acknowledged item succeeds only after the Hub has
  seen the remote branch at a tip that contains the candidate. -/
theorem publicationOutbox_protocol (h₀ : OutboxOk git s₀) :
    (∀ c c', OutboxReach git anyStep (outboxStart s₀) c → OutboxReach git anyStep c c' →
      ∀ x ∈ c.state.1.publicationOutbox, ∃ y ∈ c'.state.1.publicationOutbox, Lasts x y) ∧
    (∀ c, OutboxReach git anyStep (outboxStart s₀) c → ∀ item, IssuesPush c item →
      item ∈ c.state.1.publicationOutbox ∧ Pushable item) ∧
    (∀ c, OutboxReach git anyStep (outboxStart s₀) c →
      ∀ policy transactionId taskId candidateOid now r key,
        ((), .enqueue policy transactionId taskId candidateOid now, r) ∈ c.returns →
        enqueueKey policy transactionId candidateOid = some key →
        ∃! x, x ∈ c.state.1.publicationOutbox ∧ x.key = key) ∧
    (∀ c c', OutboxReach git Answers (outboxStart s₀) c →
      c.next (fun i k => (outboxCode git i k).tracked (noteSaw git)) (.finish ()) = some c' →
      ∀ before r, c'.returns.head? = some ((), .project before, r) → Settled c'.state.1) ∧
    (∀ c c', OutboxReach git (Confirms git) (outboxStart s₀) c →
      Pool.Step (outboxRuns git (Confirms git))
        (fun i k => (outboxCode git i k).tracked (noteSaw git)) c c' →
      SucceedsSeen c.state c'.state) := by
  have H : (outboxContract git False False).Holds (outboxRuns git anyStep)
      fun i k => (outboxCode git i k).tracked (noteSaw git) :=
    outboxContract_holds (fun h => h.elim) fun h => h.elim
  have hstart : (outboxContract git False False).Ok (outboxRuns git anyStep)
      (outboxStart s₀) := Contract.ok_idle h₀
  refine ⟨?_, ?_, ?_, ?_, ?_⟩
  · intro c c' hc hcc'
    exact outbox_lasts H (H.ok_reach hstart hc) hcc'
  · intro c hc item hissues
    exact pushable_of_issues H (H.ok_reach hstart hc) hissues
  · intro c hc policy transactionId taskId candidateOid now r key hmem hkey
    exact enqueued_unique h₀ H hc hmem hkey
  · intro c c' hc hnext before r hhead
    have HA : (outboxContract git True False).Holds (outboxRuns git Answers)
        fun i k => (outboxCode git i k).tracked (noteSaw git) :=
      outboxContract_holds (fun _ _ _ _ _ h => h) fun h => h.elim
    have hidle : (outboxContract git True False).Ok (outboxRuns git Answers)
        (outboxStart s₀) := Contract.ok_idle h₀
    have hok := HA.ok_reach hidle hc
    obtain ⟨k, r', seen, hreturns, hstate, hpost, houtbox, -⟩ := hok.finish_post hnext
    rw [hreturns] at hhead
    obtain ⟨-, rfl, rfl⟩ : () = () ∧ k = .project before ∧ r' = r := by simpa using hhead
    have hsettled : Settled seen.1 := hpost trivial
    unfold Settled
    rw [hstate, houtbox]
    exact hsettled
  · intro c c' hc hstep
    have HC : (outboxContract git False True).Holds (outboxRuns git (Confirms git))
        fun i k => (outboxCode git i k).tracked (noteSaw git) :=
      outboxContract_holds (fun h => h.elim) fun _ _ _ _ _ h => h
    have hidle : (outboxContract git False True).Ok (outboxRuns git (Confirms git))
        (outboxStart s₀) := Contract.ok_idle h₀
    have hok := HC.ok_reach hidle hc
    rcases hok.step_cases hstep with heq | ⟨i, th, -, hguar⟩ | henv
    · exact succeedsSeen_of_outbox hok.1.ids (by rw [heq])
    · exact hguar.2 trivial
    · exact succeedsSeen_of_outbox hok.1.ids henv.1

end

/-! ### A force rewrite before the read-back -/

/-- The item of the candidate `"ab"` for the absent branch `main` of `origin`. -/
def sampleOutboxItem : HubPublicationOutboxItem where
  id := resolveHubPublicationId sampleGit "tx" "origin" "refs/heads/main" "ab" GIT_ZERO_OID
  transactionId := "tx"
  taskId := "task"
  remoteName := "origin"
  remoteRef := "refs/heads/main"
  remoteTarget := "origin/main"
  candidateOid := "ab"
  expectedRemoteOid := GIT_ZERO_OID
  status := .pending
  createdAt := 0

def sampleOutboxWorld : HubWorld where
  publicationOutbox := [sampleOutboxItem]

def sampleRewritten : HubWorld :=
  { sampleOutboxWorld.pushed sampleOutboxItem with
    remotes := fun _ => { tip := fun _ => some "x" } }

def samplePush : List (Action Unit OutboxCall (HubWorld × Saw)) :=
  .start () (.project [sampleOutboxItem]) :: List.replicate 5 (.step ())

def samplePushed : OutboxPool :=
  ((outboxStart sampleOutboxWorld).exec
    (fun i k => (outboxCode sampleGit i k).tracked (noteSaw sampleGit)) samplePush).getD
      (outboxStart sampleOutboxWorld)

def sampleOutboxRun (n : Nat) : List (Action Unit OutboxCall (HubWorld × Saw)) :=
  samplePush ++ .env (sampleRewritten, samplePushed.state.2) :: List.replicate n (.step ())

theorem sampleOutboxOk : OutboxOk sampleGit sampleOutboxWorld where
  ids := List.nodup_singleton _
  keys := by
    intro x hx y hy _
    rw [List.mem_singleton.mp hx, List.mem_singleton.mp hy]
  unset := by
    intro x hx h
    rw [List.mem_singleton.mp hx] at h
    exact absurd h (by decide)
  pushed := by
    intro x hx h
    rw [List.mem_singleton.mp hx] at h
    cases h

theorem sampleOutboxRun_permitted (n : Nat) :
    (outboxStart sampleOutboxWorld).Permitted (outboxRuns sampleGit anyStep)
      (fun i k => (outboxCode sampleGit i k).tracked (noteSaw sampleGit)) (sampleOutboxRun n) := by
  have hrest : ∀ c : OutboxPool, c.Permitted (outboxRuns sampleGit anyStep)
      (fun i k => (outboxCode sampleGit i k).tracked (noteSaw sampleGit))
      (List.replicate n (.step ())) := by
    refine Pool.permitted_of_forall ?_
    intro a ha c
    rw [List.eq_of_mem_replicate ha]
    exact fun _ _ _ _ _ => trivial
  have hstep : ∀ c : OutboxPool, (outboxRuns sampleGit anyStep).Permits c (.step ()) :=
    fun _ _ _ _ _ _ => trivial
  refine Pool.permitted_cons rfl rfl (Pool.permitted_cons (hstep _) rfl ?_)
  refine Pool.permitted_cons (hstep _) rfl (Pool.permitted_cons (hstep _) rfl ?_)
  refine Pool.permitted_cons (hstep _) rfl (Pool.permitted_cons (hstep _) rfl ?_)
  exact Pool.permitted_cons ⟨rfl, rfl, rfl⟩ rfl (hrest _)

/-- After the push and the rewrite, the next step acknowledges the push. -/
theorem publicationOutbox_protocol_sample :
    ∃ c : OutboxPool, OutboxReach sampleGit anyStep (outboxStart sampleOutboxWorld) c ∧
      ∃ y ∈ c.state.1.publicationOutbox, Lasts sampleOutboxItem y ∧ y.acked = true := by
  have hreach : OutboxReach sampleGit anyStep (outboxStart sampleOutboxWorld) _ :=
    Pool.reach_of_exec (sampleOutboxRun 1) rfl (sampleOutboxRun_permitted 1)
  obtain ⟨y, hy, hlasts⟩ := (publicationOutbox_protocol sampleOutboxOk).1 _ _ .refl hreach
    sampleOutboxItem (List.mem_singleton.mpr rfl)
  refine ⟨_, hreach, y, hy, hlasts, ?_⟩
  rw [List.mem_singleton.mp hy]
  rfl

/-- The branch is rewritten after the push. The projection acknowledges the push, reads the
rewritten branch back and records the success. -/
theorem rewritten_succeeds :
    ¬ ∀ c c' : OutboxPool, OutboxReach sampleGit anyStep (outboxStart sampleOutboxWorld) c →
      Pool.Step (outboxRuns sampleGit anyStep)
        (fun i k => (outboxCode sampleGit i k).tracked (noteSaw sampleGit)) c c' →
      SucceedsSeen c.state c'.state := by
  intro hall
  have hreach : OutboxReach sampleGit anyStep (outboxStart sampleOutboxWorld) _ :=
    Pool.reach_of_exec (sampleOutboxRun 3) rfl (sampleOutboxRun_permitted 3)
  have hseen := hall _ _ hreach ⟨.step (), fun _ _ _ _ _ => trivial, rfl⟩
    sampleOutboxItem.acknowledged (List.mem_singleton.mpr rfl) rfl
    (sampleOutboxItem.acknowledged.succeeded "ab") (List.mem_singleton.mpr rfl) rfl rfl
  cases hseen

end ArchLoop
