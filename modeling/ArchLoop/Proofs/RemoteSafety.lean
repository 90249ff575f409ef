import ArchLoop.Lib.Pool
import ArchLoop.Publication
import ArchLoop.Sample

/-!
# `ArchLoop.Proofs.RemoteSafety`: what a push may discard

A Hub process enqueues and projects publications, while other writers move the remote branches
between any two of its steps. A push replaces the tip `t` of a branch by the candidate. No
commit is lost when the branch was absent or `t` is an ancestor of the candidate
(`KeepsHistory`).

`projectOneItem` refuses a tip that it finds diverged, but a tip that is the one recorded when
the item was enqueued never counts as diverged. So a push loses commits exactly when the branch
stands at the recorded tip and the candidate does not contain it (`BlindPush`).

- `sat_pushCandidate` is the step lemma: the push is allowed to replace only the observed tip,
  which is the recorded one or an ancestor of the candidate.
- `remotePush_keepsHistory_iff` gives the equivalence for each push of each run, and from it
  that no push of a run without blind pushes loses a commit.
- `blindPush_discards` is a run that loses commits.
-/

set_option autoImplicit false

namespace ArchLoop

open ArchLoop.Lib

inductive PublicationCall where
  | enqueue (policy : HubLandingPolicy) (transactionId : TransactionId) (taskId : TaskId)
      (candidateOid : Oid) (now : Timestamp)
  | project

def publicationCode (git : Git) : Unit → PublicationCall → Hub Unit
  | _, .enqueue policy transactionId taskId candidateOid now => do
    let _item ← enqueueHubPublication git policy transactionId taskId candidateOid now
    return ()
  | _, .project => do
    let _items ← projectHubPublicationOutbox git
    return ()

/-- The tip of the branch that the item is published to. -/
def HubWorld.tipOf (s : HubWorld) (item : HubPublicationOutboxItem) : Option Oid :=
  (s.remotes item.remoteName).tip item.remoteRef

/-- Replacing this tip by the candidate loses no commit. -/
def KeepsHistory (git : Git) (replaced : Option Oid) (candidateOid : Oid) : Prop :=
  ∀ t, replaced = some t → git.isAncestor t candidateOid = true

/-- The branch stands at the tip that was recorded when the item was enqueued, and the
candidate does not contain that tip. -/
def BlindPush (git : Git) (s : HubWorld) (item : HubPublicationOutboxItem) : Prop :=
  s.tipOf item = some item.expectedRemoteOid ∧
    git.isAncestor item.expectedRemoteOid item.candidateOid = false

/-- The items of the outbox have ids of their own, as files have names. -/
def OutboxWf (s : HubWorld) : Prop :=
  (s.publicationOutbox.map (·.id)).Nodup

/-- Runs in which everything but the outbox of the project may be moved from outside.
`allowed` says which steps the runs take. -/
def publicationRuns (allowed : PublicationCall → HubWorld → HubWorld → HubWorld → Prop) :
    Discipline Unit PublicationCall HubWorld where
  start := fun _ _ _ => True
  env := fun s t => t.publicationOutbox = s.publicationOutbox ∧ t.trace = s.trace
  allowed := allowed

/-- A step pushes nothing, or it pushes an item of the outbox, over a tip that is the recorded
one, an ancestor of the candidate, or absent. -/
def PushMove (git : Git) (s t : HubWorld) : Prop :=
  t.trace = s.trace ∨ ∃ item ∈ s.publicationOutbox, t = s.pushed item ∧
    (s.tipOf item = some item.expectedRemoteOid ∨
      KeepsHistory git (s.tipOf item) item.candidateOid)

def publicationContract (git : Git) : Contract Unit PublicationCall HubWorld HubError Unit where
  inv := OutboxWf
  rely := fun _ s t => t.publicationOutbox = s.publicationOutbox
  guar := fun _ _ _ => PushMove git
  post := fun _ _ _ _ => True

/-! ### The outbox files -/

theorem map_id_writeItem (item : HubPublicationOutboxItem)
    (items : List HubPublicationOutboxItem) :
    (writeItem item items).map (·.id) = items.map (·.id) ∨
      item.id ∉ items.map (·.id) ∧
        (writeItem item items).map (·.id) = items.map (·.id) ++ [item.id] := by
  induction items with
  | nil => exact Or.inr ⟨List.not_mem_nil, rfl⟩
  | cons first rest ih =>
    by_cases hid : first.id = item.id
    · refine Or.inl ?_
      rw [writeItem, if_pos hid, List.map_cons, List.map_cons, hid]
    · simp only [writeItem, if_neg hid, List.map_cons]
      rcases ih with heq | ⟨hnew, heq⟩
      · exact Or.inl (by rw [heq])
      · refine Or.inr ⟨?_, by rw [heq, List.cons_append]⟩
        intro hmem
        rcases List.mem_cons.mp hmem with h | h
        · exact hid h.symm
        · exact hnew h

theorem nodup_writeItem {item : HubPublicationOutboxItem}
    {items : List HubPublicationOutboxItem} (h : (items.map (·.id)).Nodup) :
    ((writeItem item items).map (·.id)).Nodup := by
  rcases map_id_writeItem item items with heq | ⟨hnew, heq⟩
  · rw [heq]
    exact h
  · rw [heq, List.nodup_append]
    refine ⟨h, List.nodup_singleton _, ?_⟩
    rintro a ha b hb rfl
    obtain rfl := List.mem_singleton.mp hb
    exact hnew ha

theorem mem_writeItem_of_ne {item other : HubPublicationOutboxItem}
    {items : List HubPublicationOutboxItem} (h : other ∈ items) (hid : other.id ≠ item.id) :
    other ∈ writeItem item items := by
  induction items with
  | nil => cases h
  | cons first rest ih =>
    simp only [writeItem]
    split
    · rename_i hfirst
      rcases List.mem_cons.mp h with rfl | h
      · exact absurd hfirst hid
      · exact List.mem_cons_of_mem _ h
    · rcases List.mem_cons.mp h with rfl | h
      · exact List.mem_cons_self
      · exact List.mem_cons_of_mem _ (ih h)

section
variable {git : Git} {s : HubWorld} {k : PublicationCall}

abbrev publicationRules (git : Git) (k : PublicationCall) : Rules HubWorld :=
  (publicationContract git).rules (publicationRuns fun _ _ _ _ => True) () k

def InOutbox (items : List HubPublicationOutboxItem) (s : HubWorld) : Prop :=
  ∀ item ∈ items, item ∈ s.publicationOutbox

theorem InOutbox.rely {items : List HubPublicationOutboxItem} {t : HubWorld}
    (hs : InOutbox items s) (h : (publicationRules git k).rely s t) : InOutbox items t := by
  intro item hitem
  have houtbox : t.publicationOutbox = s.publicationOutbox := h
  rw [houtbox]
  exact hs item hitem

theorem sat_publicationRead {α β : Type} {Q : β → HubWorld → Prop}
    {E : HubError → HubWorld → Prop} {items : List HubPublicationOutboxItem}
    {f : HubWorld → α} {g : α → Hub β} (hs : InOutbox items s)
    (h : ∀ t, OutboxWf t → InOutbox items t →
      Prog.Sat (publicationRules git k) Q E (g (f t)) t) :
    Prog.Sat (publicationRules git k) Q E ((Prog.reads f).bind g) s := by
  intro t hrely hinv _
  exact ⟨Or.inl rfl, hinv, h t hinv (hs.rely hrely)⟩

theorem sat_writeOutboxItem {item : HubPublicationOutboxItem}
    {items : List HubPublicationOutboxItem} (hid : ∀ x ∈ items, x.id ≠ item.id)
    (hs : InOutbox items s) :
    Prog.Sat (publicationRules git k) (fun written t => written = item ∧ InOutbox items t)
      (fun _ _ => True) (writeOutboxItem item) s := by
  intro t hrely hinv _
  refine ⟨Or.inl rfl, nodup_writeItem hinv, rfl, ?_⟩
  intro x hx
  exact mem_writeItem_of_ne (hs.rely hrely x hx) (hid x hx)

/-- What the checks before a push leave for its lease: none, the recorded tip, or an ancestor
of the candidate. -/
def LeaseChecked (git : Git) (item : HubPublicationOutboxItem) (lease : Oid) : Prop :=
  lease = GIT_ZERO_OID ∨ lease = item.expectedRemoteOid ∨
    git.isAncestor lease item.candidateOid = true

theorem acceptsPush_cases {item : HubPublicationOutboxItem} {lease : Oid}
    (hlease : LeaseChecked git item lease) (h : s.acceptsPush git item lease = true) :
    s.tipOf item = some item.expectedRemoteOid ∨
      KeepsHistory git (s.tipOf item) item.candidateOid := by
  have hmay : pushMayReplace git (s.tipOf item) item.candidateOid lease = true :=
    (Bool.and_eq_true_iff.mp h).2
  unfold pushMayReplace at hmay
  split at hmay
  · refine Or.inr ?_
    intro t ht
    rw [ht] at hmay
    exact hmay
  · rename_i hne
    have htip : s.tipOf item = some lease := beq_iff_eq.mp hmay
    rcases hlease with hzero | rfl | hancestor
    · exact absurd hzero hne
    · exact Or.inl htip
    · refine Or.inr ?_
      intro t ht
      obtain rfl := Option.some.inj (htip.symm.trans ht)
      exact hancestor

theorem sat_pushCandidate {item : HubPublicationOutboxItem}
    {items : List HubPublicationOutboxItem} {lease : Oid} (hlease : LeaseChecked git item lease)
    (hs : InOutbox (item :: items) s) :
    Prog.Sat (publicationRules git k) (fun _ => InOutbox items) (fun _ _ => True)
      (pushCandidate git item lease) s := by
  intro t hrely hinv _
  have ht := hs.rely hrely
  beta_reduce
  split
  · rename_i haccepts
    refine ⟨Or.inr ⟨item, ht item List.mem_cons_self, rfl, acceptsPush_cases hlease haccepts⟩,
      hinv, ?_⟩
    exact fun x hx => ht x (List.mem_cons_of_mem _ hx)
  · exact ⟨Or.inl rfl, hinv, fun x hx => ht x (List.mem_cons_of_mem _ hx)⟩

section
variable {item : HubPublicationOutboxItem} {items : List HubPublicationOutboxItem}

theorem sat_recordItem (hid : ∀ x ∈ items, x.id ≠ item.id) (hs : InOutbox items s) :
    Prog.Sat (publicationRules git k) (fun _ => InOutbox items) (fun _ _ => True)
      (writeOutboxItem item) s :=
  Prog.sat_mono (sat_writeOutboxItem hid hs) (fun _ _ h => h.2) fun _ _ h => h

theorem sat_trySucceedFromRemoteObservation (hid : ∀ x ∈ items, x.id ≠ item.id)
    (hs : InOutbox items s) :
    Prog.Sat (publicationRules git k) (fun _ => InOutbox items) (fun _ _ => True)
      (trySucceedFromRemoteObservation git item) s := by
  refine sat_publicationRead hs fun t _ ht => ?_
  match (t.remotes item.remoteName).observe item.remoteRef with
  | .error reason => exact ht
  | .ok none => exact ht
  | .ok (some tip) =>
    refine sat_publicationRead ht fun u _ hu => ?_
    cases u.remoteContainsCandidate git item.candidateOid (some tip) with
    | false => exact hu
    | true => exact Prog.sat_bind (sat_writeOutboxItem hid hu) fun _ _ h => h.2

theorem sat_pushCandidateWithCrashWindows {lease : Oid} (hlease : LeaseChecked git item lease)
    (hid : ∀ x ∈ items, x.id ≠ item.id) (hs : InOutbox (item :: items) s) :
    Prog.Sat (publicationRules git k) (fun _ => InOutbox items) (fun _ _ => True)
      (pushCandidateWithCrashWindows git item lease) s := by
  refine Prog.sat_bind (sat_pushCandidate hlease hs) fun failure t ht => ?_
  cases failure with
  | some stderr =>
    refine Prog.sat_bind (sat_trySucceedFromRemoteObservation hid ht) fun recovered u hu => ?_
    cases recovered with
    | some item => exact hu
    | none => exact sat_recordItem hid hu
  | none =>
    refine Prog.sat_bind (sat_writeOutboxItem hid ht) ?_
    rintro - u ⟨rfl, hu⟩
    refine Prog.sat_bind (sat_trySucceedFromRemoteObservation hid hu) fun confirmed v hv => ?_
    cases confirmed with
    | some item => exact hv
    | none => exact sat_recordItem hid hv

theorem leaseChecked_of_not_diverged {tip : Option Oid}
    (h : s.remoteTipDivergedFromExpectation git item tip = false) :
    LeaseChecked git item (tip.getD GIT_ZERO_OID) := by
  cases tip with
  | none => exact Or.inl rfl
  | some t =>
    simp only [HubWorld.remoteTipDivergedFromExpectation, Bool.and_eq_false_iff, bne_eq_false_iff_eq,
      Bool.not_eq_false'] at h
    rcases h with heq | hff
    · exact Or.inr (Or.inl heq)
    · exact Or.inr (Or.inr (HubWorld.isAncestor_sound hff))

theorem sat_ensureTipFetched {tip : Option Oid} (hs : InOutbox items s) :
    Prog.Sat (publicationRules git k) (fun _ => InOutbox items) (fun _ _ => True)
      (ensureTipFetched git item tip) s := by
  cases tip with
  | none => exact hs
  | some tip =>
  refine sat_publicationRead hs fun t _ ht => ?_
  cases t.hasObject tip with
  | true => exact ht
  | false =>
    intro u hrely hinv _
    have hu := ht.rely hrely
    beta_reduce
    split
    · exact ⟨Or.inl rfl, hinv, hu⟩
    · exact ⟨Or.inl rfl, hinv, hu⟩

theorem sat_projectObservedItem {tip : Option Oid} (hid : ∀ x ∈ items, x.id ≠ item.id)
    (hs : InOutbox (item :: items) s) :
    Prog.Sat (publicationRules git k) (fun _ => InOutbox items) (fun _ _ => True)
      (projectObservedItem git item tip) s := by
  refine Prog.sat_bind (sat_ensureTipFetched hs) fun _ t ht => ?_
  refine sat_publicationRead ht fun u _ hu => ?_
  have hrest : ∀ {v : HubWorld}, InOutbox (item :: items) v → InOutbox items v :=
    fun hv x hx => hv x (List.mem_cons_of_mem _ hx)
  cases u.remoteContainsCandidate git item.candidateOid tip with
  | true => exact sat_recordItem hid (hrest hu)
  | false =>
    show Prog.Sat _ _ _ (if item.ambiguousPushAcknowledged then _ else _) u
    split
    · exact sat_recordItem hid (hrest hu)
    · refine sat_publicationRead hu fun v _ hv => ?_
      cases hdiverged : v.remoteTipDivergedFromExpectation git item tip with
      | true => exact sat_recordItem hid (hrest hv)
      | false =>
        exact sat_pushCandidateWithCrashWindows (leaseChecked_of_not_diverged hdiverged) hid hv

theorem sat_projectOneItem (hid : ∀ x ∈ items, x.id ≠ item.id)
    (hs : InOutbox (item :: items) s) :
    Prog.Sat (publicationRules git k) (fun _ => InOutbox items) (fun _ _ => True)
      (projectOneItem git item) s := by
  have hrest : InOutbox items s := fun x hx => hs x (List.mem_cons_of_mem _ hx)
  unfold projectOneItem
  split
  · exact hrest
  split
  · exact sat_recordItem hid hrest
  split
  · exact sat_recordItem hid hrest
  refine sat_publicationRead hs fun t _ ht => ?_
  cases (t.remotes item.remoteName).observe item.remoteRef with
  | error reason => exact sat_recordItem hid fun x hx => ht x (List.mem_cons_of_mem _ hx)
  | ok tip => exact sat_projectObservedItem hid ht

end

/-- Projecting a list of items of the outbox keeps the rules: induction on the list, with the
items that are still to come in the outbox. -/
theorem sat_projectItems {items : List HubPublicationOutboxItem}
    (hids : (items.map (·.id)).Nodup) (hs : InOutbox items s) :
    Prog.Sat (publicationRules git k) (fun _ _ => True) (fun _ _ => True)
      (projectItems git items) s := by
  induction items generalizing s with
  | nil => trivial
  | cons item items ih =>
    obtain ⟨hid, hids⟩ := List.nodup_cons.mp hids
    have hother : ∀ x ∈ items, x.id ≠ item.id := by
      intro x hx heq
      exact hid (List.mem_map.mpr ⟨x, hx, heq⟩)
    refine Prog.sat_bind (sat_projectOneItem hother hs) fun projected t ht => ?_
    exact Prog.sat_bind (ih hids ht) fun _ _ _ => trivial

theorem sat_projectHubPublicationOutbox :
    Prog.Sat (publicationRules git k) (fun _ _ => True) (fun _ _ => True)
      (projectHubPublicationOutbox git) s := by
  have hnone : InOutbox [] s := fun _ h => nomatch h
  refine sat_publicationRead hnone fun t hwf _ => ?_
  have hperm := List.perm_insertionSort
    (fun a b : HubPublicationOutboxItem => a.createdAt ≤ b.createdAt) t.publicationOutbox
  refine sat_projectItems ?_ ?_
  · exact (hperm.map HubPublicationOutboxItem.id).nodup_iff.mpr hwf
  · exact fun x hx => hperm.mem_iff.mp hx

theorem sat_enqueueHubPublication {policy : HubLandingPolicy} {transactionId : TransactionId}
    {taskId : TaskId} {candidateOid : Oid} {now : Timestamp} :
    Prog.Sat (publicationRules git k) (fun _ _ => True) (fun _ _ => True)
      (enqueueHubPublication git policy transactionId taskId candidateOid now) s := by
  have hnone : ∀ s : HubWorld, InOutbox [] s := fun _ _ h => nomatch h
  have hwrite : ∀ (item : HubPublicationOutboxItem) (s : HubWorld),
      Prog.Sat (publicationRules git k) (fun _ _ => True) (fun _ _ => True)
        ((writeOutboxItem item).bind fun written => .ret (some written)) s := by
    intro item s
    have hid : ∀ x ∈ ([] : List HubPublicationOutboxItem), x.id ≠ item.id := fun _ h => nomatch h
    exact Prog.sat_bind (sat_recordItem hid (hnone s)) fun _ _ _ => trivial
  unfold enqueueHubPublication
  split
  · trivial
  split
  · refine sat_publicationRead (hnone s) fun t _ _ => ?_
    cases t.outboxItem _ with
    | some existing => trivial
    | none => exact hwrite _ t
  · split
    · trivial
    · refine sat_publicationRead (hnone s) fun t _ _ => ?_
      refine sat_publicationRead (hnone t) fun u _ _ => ?_
      split
      · trivial
      · refine sat_publicationRead (hnone u) fun v _ _ => ?_
        split
        · trivial
        · exact hwrite _ v

end

theorem publicationContract_holds (git : Git) :
    (publicationContract git).Holds (publicationRuns fun _ _ _ _ => True)
      (publicationCode git) where
  rely_refl := fun _ _ => rfl
  rely_trans := fun _ _ _ _ h₁ h₂ => Eq.trans h₂ h₁
  guar_rely := fun _ _ _ _ _ _ hj => absurd rfl hj
  env_keeps := by
    rintro s t hinv ⟨houtbox, -⟩
    refine ⟨?_, fun _ => houtbox⟩
    show (t.publicationOutbox.map (·.id)).Nodup
    rw [houtbox]
    exact hinv
  sat := by
    rintro - k s - -
    cases k with
    | enqueue policy transactionId taskId candidateOid now =>
      exact Prog.sat_bind sat_enqueueHubPublication fun _ _ _ => trivial
    | project => exact Prog.sat_bind sat_projectHubPublicationOutbox fun _ _ _ => trivial

theorem PushMove.pushed {git : Git} {s t : HubWorld} (h : PushMove git s t)
    {item : HubPublicationOutboxItem} {replaced : Option Oid}
    (hpush : t.trace = s.trace ++ [.remotePush item replaced]) :
    item ∈ s.publicationOutbox ∧ replaced = s.tipOf item ∧ t = s.pushed item ∧
      (s.tipOf item = some item.expectedRemoteOid ∨
        KeepsHistory git (s.tipOf item) item.candidateOid) := by
  rcases h with heq | ⟨item', hmem, rfl, htip⟩
  · rw [heq] at hpush
    simp at hpush
  · have hlast := List.append_cancel_left hpush
    obtain ⟨rfl, rfl⟩ := HubEffect.remotePush.inj (List.cons.inj hlast).1
    exact ⟨hmem, rfl, rfl, htip⟩

/-- A push that replaces the recorded tip or loses no commit loses one exactly when it is
blind. -/
theorem keepsHistory_iff_not_blind {git : Git} {s : HubWorld} {item : HubPublicationOutboxItem}
    (h : s.tipOf item = some item.expectedRemoteOid ∨
      KeepsHistory git (s.tipOf item) item.candidateOid) :
    KeepsHistory git (s.tipOf item) item.candidateOid ↔ ¬ BlindPush git s item := by
  constructor
  · rintro hkeeps ⟨htip, hnot⟩
    rw [hkeeps _ htip] at hnot
    cases hnot
  · intro hblind
    rcases h with htip | hkeeps
    · intro t ht
      obtain rfl := Option.some.inj (htip.symm.trans ht)
      by_contra hnot
      exact hblind ⟨htip, Bool.not_eq_true _ ▸ hnot⟩
    · exact hkeeps

def NoBlindPush (git : Git) : PublicationCall → HubWorld → HubWorld → HubWorld → Prop :=
  fun _ _ t t' => ∀ item, t' = t.pushed item → ¬ BlindPush git t item

abbrev PublicationPool : Type := Pool Unit PublicationCall HubWorld HubError Unit

theorem permits_publicationRuns
    {allowed : PublicationCall → HubWorld → HubWorld → HubWorld → Prop} {c : PublicationPool}
    {a : Action Unit PublicationCall HubWorld} (h : (publicationRuns allowed).Permits c a) :
    (publicationRuns fun _ _ _ _ => True).Permits c a := by
  cases a with
  | step i => exact fun _ _ _ _ _ => trivial
  | _ => exact h

/-- Step lemma: a step of a run without blind pushes adds only pushes that lose no commit. -/
theorem push_of_noBlindPush {git : Git} {c c' : PublicationPool}
    (hok : (publicationContract git).Ok (publicationRuns fun _ _ _ _ => True) c)
    (hstep : Pool.Step (publicationRuns (NoBlindPush git)) (publicationCode git) c c')
    {item : HubPublicationOutboxItem} {replaced : Option Oid}
    (hmem : .remotePush item replaced ∈ c'.state.trace) :
    .remotePush item replaced ∈ c.state.trace ∨ KeepsHistory git replaced item.candidateOid := by
  obtain ⟨a, hp, hnext⟩ := hstep
  cases a with
  | step i =>
    obtain ⟨k, upd, rest, seen, hth, heq⟩ := Pool.next_step hnext
    obtain ⟨th, hth', hmove⟩ := hok.step_guar (permits_publicationRuns hp) hnext
    rcases hmove with htrace | ⟨item', -, hpushed, htip⟩
    · rw [htrace] at hmem
      exact Or.inl hmem
    · have hupd : upd c.state = c.state.pushed item' := by rw [← hpushed, heq]
      have hblind := hp k upd rest seen hth item' hupd
      rw [hpushed] at hmem
      rcases List.mem_append.mp hmem with hmem | hmem
      · exact Or.inl hmem
      · obtain ⟨rfl, rfl⟩ := HubEffect.remotePush.inj (List.mem_singleton.mp hmem)
        exact Or.inr ((keepsHistory_iff_not_blind htip).mpr hblind)
  | env s =>
    obtain rfl := Pool.next_env hnext
    rw [hp.2] at hmem
    exact Or.inl hmem
  | start i k =>
    obtain rfl := Pool.next_start hnext
    exact Or.inl hmem
  | crash i =>
    obtain rfl := Pool.next_crash hnext
    exact Or.inl hmem
  | finish i =>
    obtain ⟨_, _, _, _, _, _, _, rfl⟩ := Pool.next_finish hnext
    exact Or.inl hmem

/-- Run lemma: the pushes of a run without blind pushes lose no commit. -/
theorem pushes_of_noBlindPush {git : Git} {s₀ : HubWorld} (h₀ : OutboxWf s₀)
    {c : PublicationPool}
    (hc : Pool.Reach (publicationRuns (NoBlindPush git)) (publicationCode git) (Pool.idle s₀) c) :
    (publicationContract git).Ok (publicationRuns fun _ _ _ _ => True) c ∧
      ∀ item replaced, .remotePush item replaced ∈ c.state.trace →
        .remotePush item replaced ∈ s₀.trace ∨ KeepsHistory git replaced item.candidateOid := by
  induction hc with
  | refl => exact ⟨Contract.ok_idle h₀, fun _ _ h => Or.inl h⟩
  | tail _ hstep ih =>
    obtain ⟨hok, ih⟩ := ih
    refine ⟨?_, ?_⟩
    · obtain ⟨a, hp, hnext⟩ := hstep
      exact (publicationContract_holds git).ok_next hok (permits_publicationRuns hp) hnext
    · intro item replaced hmem
      rcases push_of_noBlindPush hok hstep hmem with hold | hkeeps
      · exact ih item replaced hold
      · exact Or.inr hkeeps

/-- For each run of publication calls, with other writers moving the remotes:

- a push replaces the tip of the branch by the candidate of an outbox item, and it loses no
  commit exactly when it is not blind;
- in a run without blind pushes, no push loses a commit. -/
theorem remotePush_keepsHistory_iff (git : Git) {s₀ : HubWorld} (h₀ : OutboxWf s₀) :
    (∀ (c c' : PublicationPool) (item : HubPublicationOutboxItem) (replaced : Option Oid),
      Pool.Reach (publicationRuns fun _ _ _ _ => True) (publicationCode git) (Pool.idle s₀) c →
      c.next (publicationCode git) (.step ()) = some c' →
      c'.state.trace = c.state.trace ++ [.remotePush item replaced] →
      item ∈ c.state.publicationOutbox ∧ replaced = c.state.tipOf item ∧
        c'.state.tipOf item = some item.candidateOid ∧
        (KeepsHistory git replaced item.candidateOid ↔ ¬ BlindPush git c.state item)) ∧
    (∀ c : PublicationPool,
      Pool.Reach (publicationRuns (NoBlindPush git)) (publicationCode git) (Pool.idle s₀) c →
      ∀ item replaced, .remotePush item replaced ∈ c.state.trace →
        .remotePush item replaced ∈ s₀.trace ∨ KeepsHistory git replaced item.candidateOid) := by
  constructor
  · intro c c' item replaced hc hnext hpush
    have hok := (publicationContract_holds git).ok_reach (Contract.ok_idle h₀) hc
    obtain ⟨th, -, hmove⟩ := hok.step_guar (fun _ _ _ _ _ => trivial) hnext
    obtain ⟨hmem, rfl, heq, htip⟩ := PushMove.pushed hmove hpush
    refine ⟨hmem, rfl, ?_, keepsHistory_iff_not_blind htip⟩
    rw [heq]
    simp [HubWorld.tipOf, HubWorld.pushed]
  · exact fun c hc => (pushes_of_noBlindPush h₀ hc).2

/-! ### Two runs -/

/-- The call that enqueues the candidate `"ab"` for the branch `main` of `origin`. -/
def sampleEnqueue : PublicationCall :=
  .enqueue ⟨"main", .bestEffort, some "origin/main", none⟩ "tx" "task" "ab" 0

/-- Enqueueing the candidate, and then `n` steps of a projection. -/
def sampleProjection (n : Nat) : List (Action Unit PublicationCall HubWorld) :=
  .start () sampleEnqueue :: List.replicate 4 (.step ()) ++
    .finish () :: .start () .project :: List.replicate n (.step ())

theorem sampleProjection_permitted (n : Nat) (c : PublicationPool) :
    c.Permitted (publicationRuns fun _ _ _ _ => True) (publicationCode sampleGit)
      (sampleProjection n) := by
  refine Pool.permitted_of_forall ?_ c
  intro a ha c
  simp only [sampleProjection, List.cons_append, List.mem_cons, List.mem_append,
    List.mem_replicate] at ha
  rcases ha with rfl | ⟨-, rfl⟩ | rfl | rfl | ⟨-, rfl⟩
  all_goals first | trivial | exact fun _ _ _ _ _ => trivial

/-- The branch is absent: the push that creates it is not blind. -/
theorem remotePush_keepsHistory_iff_sample :
    ∃ (c c' : PublicationPool) (item : HubPublicationOutboxItem),
      c.next (publicationCode sampleGit) (.step ()) = some c' ∧
      c'.state.tipOf item = some item.candidateOid ∧ ¬ BlindPush sampleGit c.state item := by
  have hreach : Pool.Reach (publicationRuns fun _ _ _ _ => True) (publicationCode sampleGit)
      (Pool.idle {}) _ :=
    Pool.reach_of_exec (sampleProjection 4) rfl (sampleProjection_permitted 4 _)
  have hwf : OutboxWf {} := List.nodup_nil
  obtain ⟨-, -, htip, hiff⟩ :=
    (remotePush_keepsHistory_iff sampleGit hwf).1 _ _ _ none hreach rfl rfl
  exact ⟨_, _, _, rfl, htip, hiff.mp fun _ h => nomatch h⟩

/-- The branch `main` stands at `"x"`, which no candidate on `"a"` contains. -/
def sampleRemoteWorld : HubWorld where
  remotes := fun _ => { tip := fun ref => if ref = "refs/heads/main" then some "x" else none }

/-- The candidate is enqueued while the branch stands at `"x"`, and then projected: the push
replaces `"x"`, which the candidate does not contain. -/
theorem blindPush_discards :
    ∃ (c : PublicationPool) (item : HubPublicationOutboxItem),
      Pool.Reach (publicationRuns fun _ _ _ _ => True) (publicationCode sampleGit)
        (Pool.idle sampleRemoteWorld) c ∧
      .remotePush item (some "x") ∈ c.state.trace ∧
      c.state.tipOf item = some item.candidateOid ∧
      ¬ KeepsHistory sampleGit (some "x") item.candidateOid := by
  have hreach : Pool.Reach (publicationRuns fun _ _ _ _ => True) (publicationCode sampleGit)
      (Pool.idle sampleRemoteWorld) _ :=
    Pool.reach_of_exec (sampleProjection 10) rfl (sampleProjection_permitted 10 _)
  refine ⟨_, _, hreach, List.mem_singleton.mpr rfl, rfl, ?_⟩
  intro h
  exact absurd (h "x" rfl) (by decide)

end ArchLoop
