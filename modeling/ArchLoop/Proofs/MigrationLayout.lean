import ArchLoop.Proofs.MigrationLease

/-!
# `ArchLoop.Proofs.MigrationLayout`: the layout of the stores while calls migrate them

`LayoutInv` says how the three stores stand to each other in every state of the runs that
`LayoutRuns` admits:

- While the database is not quarantined, the managed store is empty, there is no redirect and
  the repository-local store is complete.
- Once it is, the managed store, if it has a database, has all that the quarantine has.
- Once the verification is recorded, the redirect is there and the managed store is complete.

The runs are those in which a call takes the lease while no other one holds it. A
`MigrationView` says what else they are about. With `tracked`, a removal of the managed store
loses nothing, and the stores hold what `bd` has accepted. With `calm`, nobody else moves an
entry between two steps of a call, and a call that finds something quarantined meets no
obstacle before it holds the lease.

`layout_holds` is the contract: how the outcomes of a call relate to the state in which its
last step leaves the stores (`OutcomeOk`).
-/

set_option autoImplicit false

namespace ArchLoop

open ArchLoop.Lib

section
variable {ι χ : Type}

/-- What the runs are about.

- `le`: all that the first content holds is in the second.
- `tracked`: the stores are compared with what `bd` has accepted.
- `calm`: the deferrals are looked at. -/
structure MigrationView (χ : Type) where
  le : χ → χ → Prop
  refl : ∀ a, le a a
  trans : ∀ a b c, le a b → le b c → le a c
  tracked : Prop
  calm : Prop

def Touched (s : StoreWorld ι χ) : Prop := ∃ entry, s.quarantine.has entry = true

variable (V : MigrationView χ)

structure FreshLayout (s : StoreWorld ι χ) : Prop where
  redirect : s.redirect = false
  managed : s.managed = .empty
  repo : s.repo.fullyInitialized = true
  accepted : ∀ db, s.repo .database = some db → V.le s.accepted db

/-- The invariant.

- `repoGone`: the database is in one of the two places.
- `kept`: the managed database, or else the quarantined one, holds what was accepted. -/
structure LayoutInv (s : StoreWorld ι χ) : Prop where
  fresh : s.quarantined = false → FreshLayout V s
  repoGone : V.tracked → s.quarantined = true → s.repo .database = none
  kept : ∀ q, s.quarantine .database = some q →
    (∀ m, s.managed .database = some m → V.le q m ∧ V.le s.accepted m) ∧
    (s.managed .database = none → V.le s.accepted q)
  verified : .verified ∈ s.phases → s.redirect = true ∧ s.managed.fullyInitialized = true
  exclusive : ∀ i, s.inside i = true → s.life i = .running → Alone i s
  unborn : ∀ i, s.life i = .unborn → s.inside i = false

structure LayoutGrows (s t : StoreWorld ι χ) : Prop where
  quarantine : ∀ entry, s.quarantine.has entry = true → t.quarantine entry = s.quarantine entry
  redirect : s.redirect = true → t.redirect = true
  verified : .verified ∈ s.phases → .verified ∈ t.phases

/-- What nobody else changes while a call holds the lease. -/
structure HeldLayout (s t : StoreWorld ι χ) : Prop where
  quarantine : t.quarantine = s.quarantine
  redirect : t.redirect = s.redirect
  verified : .verified ∈ t.phases ↔ .verified ∈ s.phases
  managed : s.managed.fullyInitialized = true → t.managed.fullyInitialized = true

theorem HeldLayout.refl (s : StoreWorld ι χ) : HeldLayout s s where
  quarantine := rfl
  redirect := rfl
  verified := Iff.rfl
  managed := id

theorem HeldLayout.trans {s t u : StoreWorld ι χ} (h : HeldLayout s t) (h' : HeldLayout t u) :
    HeldLayout s u where
  quarantine := h'.quarantine.trans h.quarantine
  redirect := h'.redirect.trans h.redirect
  verified := h'.verified.trans h.verified
  managed := fun hs => h'.managed (h.managed hs)

theorem HeldLayout.grows {s t : StoreWorld ι χ} (h : HeldLayout s t) : LayoutGrows s t where
  quarantine := fun entry _ => congrFun h.quarantine entry
  redirect := fun hs => h.redirect.trans hs
  verified := h.verified.mpr

theorem SameLayout.held {s t : StoreWorld ι χ} (h : SameLayout s t) : HeldLayout s t where
  quarantine := h.quarantine
  redirect := h.redirect
  verified := h.verified
  managed := fun hs => by rw [h.managed]; exact hs

theorem LayoutGrows.trans {s t u : StoreWorld ι χ} (h : LayoutGrows s t)
    (h' : LayoutGrows t u) : LayoutGrows s u where
  quarantine := by
    intro entry hs
    have ht := h.quarantine entry hs
    have hhas : t.quarantine.has entry = true := by
      rw [Store.has, ht]
      exact hs
    exact (h'.quarantine entry hhas).trans ht
  redirect := fun hs => h'.redirect (h.redirect hs)
  verified := fun hs => h'.verified (h.verified hs)

/-- What the process `i` relies on. -/
structure LayoutRely (i : ι) (s t : StoreWorld ι χ) : Prop where
  own : OwnLife i s t
  grows : LayoutGrows s t
  held : s.life i ≠ .unborn → s.inside i = true → t.life i = .running → HeldLayout s t

theorem LayoutRely.refl (i : ι) (s : StoreWorld ι χ) : LayoutRely i s s where
  own := OwnLife.refl i s
  grows := (HeldLayout.refl s).grows
  held := fun _ _ _ => HeldLayout.refl s

theorem LayoutRely.trans {i : ι} {s t u : StoreWorld ι χ} (h : LayoutRely i s t)
    (h' : LayoutRely i t u) : LayoutRely i s u where
  own := h.own.trans h'.own
  grows := h.grows.trans h'.grows
  held := by
    intro hborn hinside hrun
    obtain ⟨hborn', -, heq⟩ := h.own hborn
    have hrun' : t.life i = .running := (h'.own hborn').2.1 hrun
    exact (h.held hborn hinside hrun').trans (h'.held hborn' (heq.trans hinside) hrun)

/-- What a step of the process `i` does. -/
structure LayoutStep (i : ι) (s t : StoreWorld ι χ) : Prop where
  life : t.life = s.life
  others : ∀ j, j ≠ i → t.inside j = s.inside j
  grows : LayoutGrows s t
  moved : HeldLayout s t ∨ (s.inside i = true ∧ s.life i = .running)

/-- With `calm`, the step of a call from `t` to `t'`, when its last step left `s`. -/
structure CalmStep (input : MigrationInput ι χ) (s t t' : StoreWorld ι χ) : Prop where
  quarantine : t.quarantine = s.quarantine
  pending : t'.lastOp = some .readPending → Touched t →
    t.quarantined = true ∧
      ∀ pending, t.pending = some pending → pending.blocks input.pid input.now t.alive = false
  lease : t'.lastOp = some .readLease → Touched t →
    leaseOwner t.lease input.pid t.alive = none

structure LayoutAllowed (input : MigrationInput ι χ) (s t t' : StoreWorld ι χ) : Prop where
  running : t.life input.process = .running
  solo : t'.lastOp = some .writeLease → Alone input.process t
  spared : t'.lastOp = some .removeManaged → ∀ m q, t.managed .database = some m →
    t.quarantine .database = some q → V.le m q
  calm : V.calm → CalmStep input s t t'

theorem LayoutAllowed.born {V : MigrationView χ} {input : MigrationInput ι χ}
    {s t t' : StoreWorld ι χ} (h : LayoutAllowed V input s t t') :
    t.life input.process ≠ .unborn := by
  rw [h.running]
  decide

/-- What the outcome of a call says of the state that its last step leaves. -/
def OutcomeOk (outcome : MigrationOutcome) (s : StoreWorld ι χ) : Prop :=
  match outcome with
  | .notNeeded .verified _ _ => .verified ∈ s.phases
  | .migrated _ _ _ _ => .verified ∈ s.phases
  | .deferred deferral =>
    V.calm → ¬ Touched s ∧ (s.store deferral.beadsDir).fullyInitialized = true
  | _ => True

def layoutContract :
    Contract ι (MigrationInput ι χ) (StoreWorld ι χ) MigrationError MigrationOutcome where
  inv := LayoutInv V
  rely := LayoutRely
  guar := fun i _ _ => LayoutStep i
  post := fun _ _ r s => ∀ outcome, r = .ok outcome → OutcomeOk V outcome s

structure LayoutRuns (D : Discipline ι (MigrationInput ι χ) (StoreWorld ι χ)) : Prop where
  start : ∀ i k s, D.start i k s → k.process = i ∧ s.life i = .running
  env : ∀ s t, LayoutInv V s → D.env s t →
    LayoutInv V t ∧ LifeGoesOn s t ∧ t.inside = s.inside ∧ HeldLayout s t
  allowed : ∀ k s t t', D.allowed k s t t' → LayoutAllowed V k s t t'

variable {V} {D : Discipline ι (MigrationInput ι χ) (StoreWorld ι χ)}
  {input : MigrationInput ι χ} {i : ι} {α : Type}

abbrev layoutRules (V : MigrationView χ)
    (D : Discipline ι (MigrationInput ι χ) (StoreWorld ι χ)) (i : ι)
    (input : MigrationInput ι χ) : Rules (StoreWorld ι χ) :=
  (layoutContract V).rules D i input

/-! ### Quiet steps -/

theorem LayoutInv.of_same {s t : StoreWorld ι χ} (hs : LayoutInv V s) (h : SameLayout s t) :
    LayoutInv V t where
  fresh := by
    rw [StoreWorld.quarantined, h.quarantine]
    intro hq
    obtain ⟨hredirect, hmanaged, hrepo, haccepted⟩ := hs.fresh hq
    exact ⟨h.redirect.trans hredirect, h.managed.trans hmanaged, by rw [h.repo]; exact hrepo,
      by rw [h.repo, h.accepted]; exact haccepted⟩
  repoGone := by
    rw [StoreWorld.quarantined, h.quarantine, h.repo]
    exact hs.repoGone
  kept := by
    rw [h.quarantine, h.managed, h.accepted]
    exact hs.kept
  verified := by
    rw [h.verified, h.redirect, h.managed]
    exact hs.verified
  exclusive := by
    unfold Alone
    rw [h.inside, h.life]
    exact hs.exclusive
  unborn := by
    rw [h.inside, h.life]
    exact hs.unborn

theorem SameLayout.layoutStep {s t : StoreWorld ι χ} (h : SameLayout s t) :
    LayoutStep i s t where
  life := h.life
  others := fun j _ => congrFun h.inside j
  grows := h.held.grows
  moved := Or.inl h.held

/-- What a call knows about the quarantine, as long as nobody else moves an entry. -/
structure Knows (V : MigrationView χ) (i : ι) (inside : Bool) (F : Store χ → Prop)
    (s : StoreWorld ι χ) : Prop where
  born : s.life i ≠ .unborn
  inside : s.inside i = inside
  fresh : s.quarantined = false → s.repo.fullyInitialized = true
  calm : V.calm → F s.quarantine

theorem Knows.later {inside : Bool} {F : Store χ → Prop} {s t t' : StoreWorld ι χ}
    (h : Knows V i inside F s) (hrely : LayoutRely i s t) (hinv : LayoutInv V t)
    (hallowed : LayoutAllowed V input s t t') : Knows V i inside F t := by
  obtain ⟨hborn, -, heq⟩ := hrely.own h.born
  refine ⟨hborn, heq.trans h.inside, fun hq => (hinv.fresh hq).repo, fun hcalm => ?_⟩
  rw [(hallowed.calm hcalm).quarantine]
  exact h.calm hcalm

theorem Knows.of_same {inside : Bool} {F : Store χ → Prop} {s t : StoreWorld ι χ}
    (h : Knows V i inside F s) (hmove : SameLayout s t) : Knows V i inside F t where
  born := by rw [hmove.life]; exact h.born
  inside := by rw [hmove.inside]; exact h.inside
  fresh := by
    rw [StoreWorld.quarantined, hmove.quarantine, hmove.repo]
    exact h.fresh
  calm := by
    rw [hmove.quarantine]
    exact h.calm

theorem Knows.mono {inside : Bool} {F G : Store χ → Prop} {s : StoreWorld ι χ}
    (h : Knows V i inside F s) (hG : V.calm → F s.quarantine → G s.quarantine) :
    Knows V i inside G s :=
  ⟨h.born, h.inside, h.fresh, fun hcalm => hG hcalm (h.calm hcalm)⟩

theorem sat_quietMove (H : LayoutRuns V D) {p : MigrationProg ι χ α} (h : p.Always QuietMove)
    {inside : Bool} {F : Store χ → Prop} {s : StoreWorld ι χ} (hs : Knows V i inside F s) :
    p.Sat (layoutRules V D i input) (fun _ => Knows V i inside F) (fun _ _ => True) s := by
  refine Prog.sat_mono (h.sat_step (fun s t t' hrely hinv hallowed hK hstep => ?_) hs)
    (fun _ _ h => h) fun _ _ _ => trivial
  have hlater := hK.later hrely hinv (H.allowed _ _ _ _ hallowed)
  exact ⟨hstep.layoutStep, hinv.of_same hstep.toSameLayout, hlater.of_same hstep.toSameLayout⟩

theorem sat_lookAt (H : LayoutRuns V D) {op : MigrationOp}
    {upd : StoreWorld ι χ → StoreWorld ι χ} {answer : StoreWorld ι χ → α}
    (hupd : (migrationStep op upd answer).Always SameLayout) {inside : Bool}
    {F : Store χ → Prop} {G : α → Store χ → Prop} {s : StoreWorld ι χ}
    (hs : Knows V i inside F s)
    (hG : ∀ t, LayoutInv V t → LayoutAllowed V input s t { upd t with lastOp := some op } →
      V.calm → F t.quarantine → G (answer t) t.quarantine) :
    (migrationStep op upd answer).Sat (layoutRules V D i input)
      (fun a => Knows V i inside (G a)) (fun _ _ => True) s := by
  intro t hrely hinv hallowed
  have hallowed' := H.allowed _ _ _ _ hallowed
  have hmove := (hupd t).1
  have hlater := hs.later hrely hinv hallowed'
  refine ⟨hmove.layoutStep, hinv.of_same hmove, ?_⟩
  refine (hlater.of_same hmove).mono fun hcalm hF => ?_
  rw [hmove.quarantine] at hF ⊢
  exact hG t hinv hallowed' hcalm hF

/-! ### Deferrals -/

/-- Nothing is quarantined, and the directory is the repository-local one. -/
def Untouched (beadsDir : StoreDir) (quarantine : Store χ) : Prop :=
  (∀ entry, quarantine.has entry = false) ∧ beadsDir = .repo

/-- What a call knows that has decided on its outcome. -/
def OutcomeKnown (V : MigrationView χ) (i : ι) (inside : Bool) (outcome : MigrationOutcome)
    (s : StoreWorld ι χ) : Prop :=
  match outcome with
  | .notNeeded .verified _ _ => .verified ∈ s.phases
  | .migrated _ _ _ _ => .verified ∈ s.phases
  | .deferred deferral => Knows V i inside (Untouched deferral.beadsDir) s
  | _ => True

theorem OutcomeKnown.ok {inside : Bool} {outcome : MigrationOutcome} {s : StoreWorld ι χ}
    (h : OutcomeKnown V i inside outcome s) : OutcomeOk V outcome s := by
  cases outcome with
  | notNeeded reason phase beadsDir =>
    cases reason with
    | verified => exact h
    | uninitialized => trivial
    | managed => trivial
    | redirect => trivial
    | legacy => trivial
  | migrated phase beadsDir backupDir journalPath => exact h
  | deferred deferral =>
    intro hcalm
    obtain ⟨hempty, hdir⟩ := h.calm hcalm
    refine ⟨?_, ?_⟩
    · rintro ⟨entry, hentry⟩
      exact absurd ((hempty entry).symm.trans hentry) (by decide)
    · rw [hdir]
      exact h.fresh (hempty _)
  | splitBrain => trivial

theorem sat_deferMigration (H : LayoutRuns V D) {site : StoreSite} {beadsDir : StoreDir}
    {reason : MigrationPendingReason} {phase : MigrationPhase} {inside : Bool}
    {s : StoreWorld ι χ} (hs : Knows V i inside (Untouched beadsDir) s) :
    (deferMigration site input beadsDir reason phase).Sat (layoutRules V D i input)
      (fun deferral => OutcomeKnown V i inside (.deferred deferral)) (fun _ _ => True) s := by
  refine Prog.sat_bind (sat_quietMove H quiet_look hs) fun previous t ht => ?_
  refine Prog.sat_bind ?_ fun pending u hu => hu
  refine Prog.sat_bind (sat_quietMove H (quiet_step rfl fun _ => ⟨_, _, _, _, rfl⟩) ht) ?_
  intro _ u hu
  exact Prog.sat_bind (sat_quietMove H (quiet_appendJournalRecord (by simp)) hu) fun _ _ h => h

/-! ### Before the lease -/

variable {site : StoreSite} {resolution : HubTaskStoreResolution}

/-- What the resolution of a call says: it names the repository-local store while nothing is
quarantined. -/
def Begun (resolution : HubTaskStoreResolution) (quarantine : Store χ) : Prop :=
  quarantine.databasePresent = false → resolution.beadsDir = .repo

/-- Moreover, a quarantine that is not empty has the database. -/
def Clear (resolution : HubTaskStoreResolution) (quarantine : Store χ) : Prop :=
  Begun resolution quarantine ∧
    ((∃ entry, quarantine.has entry = true) → quarantine.databasePresent = true)

theorem Clear.untouched {quarantine : Store χ} (h : Clear resolution quarantine)
    (hq : quarantine.databasePresent = false) : Untouched resolution.beadsDir quarantine := by
  refine ⟨fun entry => ?_, h.1 hq⟩
  cases hentry : quarantine.has entry with
  | false => rfl
  | true => exact absurd ((h.2 ⟨entry, hentry⟩).symm.trans hq) (by decide)

theorem begun_resolve {t : StoreWorld ι χ} (h : LayoutInv V t) :
    Begun (resolveHubTaskStore site t) t.quarantine := by
  intro hq
  have hfresh := h.fresh hq
  have hmanaged : t.managed.fullyInitialized = false := by
    rw [hfresh.managed]
    rfl
  rw [resolve_legacy hfresh.redirect hmanaged hfresh.repo]

theorem sat_captureRepoIdentity (H : LayoutRuns V D) {inside : Bool} {F : Store χ → Prop}
    {s : StoreWorld ι χ} (hs : Knows V i inside F s) :
    (captureRepoIdentity site input).attempt.Sat (layoutRules V D i input)
      (fun _ => Knows V i inside F) (fun _ _ => True) s :=
  sat_quietMove H (quiet_attempt quiet_captureRepoIdentity) hs

/-- A call stops with an outcome, or goes on with what it knows. -/
def StopsOr (V : MigrationView χ) (i : ι) (inside : Bool) (F : Store χ → Prop)
    (stop : Option MigrationOutcome) (s : StoreWorld ι χ) : Prop :=
  match stop with
  | some outcome => OutcomeKnown V i inside outcome s
  | none => Knows V i inside F s

theorem sat_captureBeforeLease (H : LayoutRuns V D) {quarantinePresent : Bool} {inside : Bool}
    {s : StoreWorld ι χ}
    (hs : Knows V i inside (fun q => Clear resolution q ∧
      q.databasePresent = quarantinePresent) s) :
    (captureBeforeLease site input resolution quarantinePresent).Sat (layoutRules V D i input)
      (StopsOr V i inside (Clear resolution)) (fun _ _ => True) s := by
  unfold captureBeforeLease
  split
  · rename_i hcond
    refine Prog.sat_bind (sat_captureRepoIdentity H hs) fun captured t ht => ?_
    cases captured with
    | ok identity => exact ht.mono fun _ h => h.1
    | error e =>
      refine Prog.sat_bind (sat_quietMove H quiet_look ht) fun stored u hu => ?_
      split
      · have huntouched : Knows V i inside (Untouched resolution.beadsDir) u :=
          hu.mono fun _ h => h.1.untouched (h.2.trans hcond.2)
        exact Prog.sat_bind (sat_deferMigration H huntouched) fun deferral w hw => hw
      · trivial
  · exact hs.mono fun _ h => h.1

/-! ### Under the lease, before the quarantine -/

theorem sat_recordLegacyActive (H : LayoutRuns V D) {snapshot : Option StoreIdentity}
    {inside : Bool} {s : StoreWorld ι χ} (hs : Knows V i inside (Clear resolution) s) :
    (recordLegacyActive site input resolution snapshot).Sat (layoutRules V D i input)
      (fun stop => StopsOr V i inside (Clear resolution) (stop.map .deferred))
      (fun _ _ => True) s := by
  -- a call at the start of a migration finds nothing quarantined
  refine Prog.sat_bind (sat_lookAt H same_read hs
    (G := fun startPhase q => Clear resolution q ∧
      ((startPhase = none ∨ startPhase = some .legacyActive) → q.databasePresent = false)) ?_) ?_
  · intro t hinv _ _ hclear
    refine ⟨hclear, fun hphase => ?_⟩
    cases hq : t.quarantine.databasePresent with
    | false => rfl
    | true =>
      obtain ⟨hnone, hactive, -⟩ : derivePhase site t snapshot ≠ none ∧
        derivePhase site t snapshot ≠ some .legacyActive ∧ _ := derivePhase_of_quarantined hq
      rcases hphase with h | h
      · exact absurd h hnone
      · exact absurd h hactive
  intro startPhase t ht
  split
  · rename_i hphase
    refine Prog.sat_bind (sat_quietMove H quiet_look ht) fun writer u hu => ?_
    split
    · have huntouched : Knows V i inside (Untouched resolution.beadsDir) u :=
        hu.mono fun _ h => h.1.untouched (h.2 hphase)
      exact Prog.sat_bind (sat_deferMigration H huntouched) fun deferral w hw => hw
    · refine Prog.sat_bind (sat_quietMove H quiet_maybeCrash hu) fun _ w hw => ?_
      refine Prog.sat_bind (sat_quietMove H quiet_maybeCrash hw) fun _ w hw => ?_
      refine Prog.sat_bind (sat_quietMove H (quiet_appendJournalPhase (by decide)) hw) ?_
      exact fun _ w hw => hw.mono fun _ h => h.1
  · exact ht.mono fun _ h => h.1

theorem sat_checkSource (H : LayoutRuns V D) {sourceSnapshot : StoreIdentity}
    {inside : Bool} {s : StoreWorld ι χ} (hs : Knows V i inside (Clear resolution) s) :
    (checkSource site input resolution sourceSnapshot).Sat (layoutRules V D i input)
      (fun stop => StopsOr V i inside (Clear resolution) (stop.map .deferred))
      (fun _ _ => True) s := by
  refine Prog.sat_bind (sat_lookAt H same_read hs
    (G := fun check q => Clear resolution q ∧ (check = true → q.databasePresent = false)) ?_) ?_
  · intro t hinv _ _ hclear
    refine ⟨hclear, fun hcheck => ?_⟩
    have hq := (Bool.and_eq_true_iff.mp hcheck).2
    simpa [StoreWorld.quarantined] using hq
  intro check t ht
  split
  · rename_i hcheck
    refine Prog.sat_bind (sat_captureRepoIdentity H ht) fun current u hu => ?_
    have huntouched : Knows V i inside (Untouched resolution.beadsDir) u :=
      hu.mono fun _ h => h.1.untouched (h.2 hcheck)
    cases current with
    | error e =>
      exact Prog.sat_bind (sat_deferMigration H huntouched) fun deferral w hw => hw
    | ok identity =>
      dsimp only
      split
      · exact hu.mono fun _ h => h.1
      · refine Prog.sat_bind
          (sat_quietMove H (quiet_step rfl fun _ => ⟨_, _, _, _, rfl⟩) huntouched) ?_
        intro _ w hw
        exact Prog.sat_bind (sat_deferMigration H hw) fun deferral w hw => hw
  · exact ht.mono fun _ h => h.1

/-! ### From the quarantine to the verification -/

/-- What a call knows while it holds the lease and moves the store. -/
structure Stage (i : ι) (G : StoreWorld ι χ → Prop) (s : StoreWorld ι χ) : Prop where
  born : s.life i ≠ .unborn
  inside : s.inside i = true
  known : G s

def Steady (G : StoreWorld ι χ → Prop) : Prop := ∀ s t, HeldLayout s t → G s → G t

theorem Stage.later {G : StoreWorld ι χ → Prop} (hG : Steady G) {s t t' : StoreWorld ι χ}
    (h : Stage input.process G s) (hrely : LayoutRely input.process s t)
    (hallowed : LayoutAllowed V input s t t') : Stage input.process G t := by
  obtain ⟨hborn, -, heq⟩ := hrely.own h.born
  exact ⟨hborn, heq.trans h.inside,
    hG s t (hrely.held h.born h.inside hallowed.running) h.known⟩

theorem sat_stageQuiet (H : LayoutRuns V D) {p : MigrationProg ι χ α}
    (h : p.Always QuietMove) {G : StoreWorld ι χ → Prop} (hG : Steady G) {s : StoreWorld ι χ}
    (hs : Stage input.process G s) :
    p.Sat (layoutRules V D input.process input) (fun _ => Stage input.process G)
      (fun _ _ => True) s := by
  refine Prog.sat_mono (h.sat_step (fun s t t' hrely hinv hallowed hK hstep => ?_) hs)
    (fun _ _ h => h) fun _ _ _ => trivial
  have hsame := hstep.toSameLayout
  have hlater := hK.later hG hrely (H.allowed _ _ _ _ hallowed)
  refine ⟨hsame.layoutStep, hinv.of_same hsame, ?_⟩
  exact ⟨by rw [hsame.life]; exact hlater.born, by rw [hsame.inside]; exact hlater.inside,
    hG t t' hsame.held hlater.known⟩

theorem sat_stageMove (H : LayoutRuns V D) {op : MigrationOp}
    {upd : StoreWorld ι χ → StoreWorld ι χ} {answer : StoreWorld ι χ → α}
    {G : StoreWorld ι χ → Prop} {N : α → StoreWorld ι χ → Prop}
    {E : MigrationError → StoreWorld ι χ → Prop} (hG : Steady G) {s : StoreWorld ι χ}
    (hs : Stage input.process G s)
    (hupd : ∀ t, ∃ repo managed quarantine redirect journal verifiedStore, upd t = { t with
      repo := repo, managed := managed, quarantine := quarantine, redirect := redirect,
      journal := journal, verifiedStore := verifiedStore })
    (hmove : ∀ t, LayoutInv V t → G t →
      LayoutAllowed V input s t { upd t with lastOp := some op } →
      LayoutInv V { upd t with lastOp := some op } ∧
        LayoutGrows t { upd t with lastOp := some op } ∧
        N (answer t) { upd t with lastOp := some op }) :
    (migrationStep op upd answer).Sat (layoutRules V D input.process input)
      (fun a => Stage input.process (N a)) E s := by
  intro t hrely hinv hallowed
  have hallowed' := H.allowed _ _ _ _ hallowed
  have hlater := hs.later hG hrely hallowed'
  obtain ⟨hinv', hgrows, hknown⟩ := hmove t hinv hlater.known hallowed'
  have hlife : (upd t).life = t.life ∧ (upd t).inside = t.inside := by
    obtain ⟨repo, managed, quarantine, redirect, journal, verifiedStore, heq⟩ := hupd t
    rw [heq]
    exact ⟨rfl, rfl⟩
  refine ⟨?_, hinv', ?_⟩
  · exact {
      life := hlife.1
      others := fun j _ => congrFun hlife.2 j
      grows := hgrows
      moved := Or.inr ⟨hlater.inside, hallowed'.running⟩ }
  · exact ⟨fun h => hlater.born ((congrFun hlife.1 _).symm.trans h),
      (congrFun hlife.2 _).trans hlater.inside, hknown⟩

theorem LayoutInv.of_move {s t : StoreWorld ι χ} (h : LayoutInv V s) (hlife : t.life = s.life)
    (hinside : t.inside = s.inside) (hfresh : t.quarantined = false → FreshLayout V t)
    (hgone : V.tracked → t.quarantined = true → t.repo .database = none)
    (hkept : ∀ q, t.quarantine .database = some q →
      (∀ m, t.managed .database = some m → V.le q m ∧ V.le t.accepted m) ∧
      (t.managed .database = none → V.le t.accepted q))
    (hverified : .verified ∈ t.phases →
      t.redirect = true ∧ t.managed.fullyInitialized = true) : LayoutInv V t where
  fresh := hfresh
  repoGone := hgone
  kept := hkept
  verified := hverified
  exclusive := by
    unfold Alone
    rw [hinside, hlife]
    exact h.exclusive
  unborn := by
    rw [hinside, hlife]
    exact h.unborn

/-- The database is quarantined, as knowledge of the holder of the lease. -/
def Quarantined (s : StoreWorld ι χ) : Prop := s.quarantined = true

theorem steady_quarantined : Steady (Quarantined (ι := ι) (χ := χ)) := by
  intro s t h hs
  rw [Quarantined, StoreWorld.quarantined, h.quarantine]
  exact hs

theorem Store.databasePresent_iff {store : Store χ} :
    store.databasePresent = true ↔ ∃ db, store .database = some db :=
  Option.isSome_iff_exists

theorem Store.databaseAbsent_iff {store : Store χ} :
    store.databasePresent = false ↔ store .database = none := by
  rw [Store.databasePresent, Store.has, Option.isSome_eq_false_iff, Option.isNone_iff_eq_none]

theorem Store.has_update {store : Store χ} {entry other : StoreEntry} {content : Option χ} :
    Store.has (Function.update store entry content) other =
      if other = entry then content.isSome else store.has other := by
  unfold Store.has
  rw [Function.update_apply]
  split <;> rfl

theorem layoutInv_rename {t : StoreWorld ι χ} (h : LayoutInv V t) {name : RuntimeEntry}
    (hq : t.quarantine.has (.runtime name) = false) (hrepo : t.repo.has (.runtime name) = true)
    (op : MigrationOp) :
    LayoutInv V { t.rename (.runtime name) with lastOp := some op } ∧
      LayoutGrows t { t.rename (.runtime name) with lastOp := some op } := by
  have hquarantined : ∀ s : StoreWorld ι χ, s.quarantined = s.quarantine.has .database :=
    fun _ => rfl
  constructor
  · refine h.of_move rfl rfl ?_ ?_ ?_ h.verified
    · intro hfresh
      rw [hquarantined] at hfresh
      dsimp only [StoreWorld.rename] at hfresh
      rw [Store.has_update] at hfresh
      split at hfresh
      · exact absurd (hfresh.symm.trans hrepo) (by decide)
      · rename_i hne
        have hold := h.fresh hfresh
        have hmarkers := Store.fullyInitialized_iff.mp hold.repo
        refine { redirect := hold.redirect, managed := hold.managed, repo := ?_,
                 accepted := fun db hdb => hold.accepted db ?_ }
        · rw [Store.fullyInitialized_iff]
          dsimp only [StoreWorld.rename]
          rw [Store.has_update, Store.has_update, if_neg (by simp), if_neg hne]
          exact hmarkers
        · dsimp only [StoreWorld.rename] at hdb
          rwa [Function.update_of_ne hne] at hdb
    · intro htracked hgone
      dsimp only [StoreWorld.rename]
      rw [Function.update_apply]
      split
      · rfl
      · rename_i hne
        rw [hquarantined] at hgone
        dsimp only [StoreWorld.rename] at hgone
        rw [Store.has_update, if_neg hne] at hgone
        exact h.repoGone htracked hgone
    · intro q hdb
      dsimp only [StoreWorld.rename] at hdb ⊢
      rw [Function.update_apply] at hdb
      split at hdb
      · rename_i heq
        -- this is the database, so nothing was quarantined and the managed store is empty
        have hold := h.fresh (by rw [hquarantined, heq]; exact hq)
        rw [hold.managed]
        refine ⟨fun m hm => (by cases hm), fun _ => hold.accepted q ?_⟩
        rw [heq]
        exact hdb
      · exact h.kept q hdb
  · refine { quarantine := fun entry hentry => ?_, redirect := id, verified := id }
    dsimp only [StoreWorld.rename]
    rw [Function.update_of_ne]
    rintro rfl
    exact absurd (hq.symm.trans hentry) (by decide)

theorem sat_stageLook (H : LayoutRuns V D) {op : MigrationOp}
    {upd : StoreWorld ι χ → StoreWorld ι χ} {answer : StoreWorld ι χ → α}
    (hupd : (migrationStep op upd answer).Always QuietMove) {G : StoreWorld ι χ → Prop}
    {N : α → StoreWorld ι χ → Prop} {E : MigrationError → StoreWorld ι χ → Prop}
    (hG : Steady G) (hN : ∀ a, Steady (N a)) {s : StoreWorld ι χ}
    (hs : Stage input.process G s) (hlook : ∀ t, LayoutInv V t → G t → N (answer t) t) :
    (migrationStep op upd answer).Sat (layoutRules V D input.process input)
      (fun a => Stage input.process (N a)) E s := by
  intro t hrely hinv hallowed
  have hsame := (hupd t).1.toSameLayout
  have hlater := hs.later hG hrely (H.allowed _ _ _ _ hallowed)
  refine ⟨hsame.layoutStep, hinv.of_same hsame, ?_⟩
  exact ⟨fun h => hlater.born ((congrFun hsame.life _).symm.trans h),
    (congrFun hsame.inside _).trans hlater.inside,
    hN _ _ _ hsame.held (hlook t hinv hlater.known)⟩

theorem quarantined_rename {t : StoreWorld ι χ} (hrepo : t.repo.has .database = true)
    (op : MigrationOp) : Quarantined { t.rename .database with lastOp := some op } := by
  show Store.has (Function.update t.quarantine .database (t.repo .database)) .database = true
  rw [Store.has_update, if_pos rfl]
  exact hrepo

theorem sat_quarantineEntry (H : LayoutRuns V D) {name : RuntimeEntry}
    {rest : List RuntimeEntry} {s : StoreWorld ι χ}
    (hs : Stage input.process (fun s => Quarantined s ∨ .embeddeddolt ∈ name :: rest) s) :
    (quarantineEntry name).Sat (layoutRules V D input.process input)
      (fun _ => Stage input.process fun s => Quarantined s ∨ .embeddeddolt ∈ rest)
      (fun _ _ => True) s := by
  have hsteady : ∀ names : List RuntimeEntry,
      Steady fun s : StoreWorld ι χ => Quarantined s ∨ .embeddeddolt ∈ names := by
    intro names t u h ht
    rcases ht with hq | hmem
    · exact Or.inl (steady_quarantined t u h hq)
    · exact Or.inr hmem
  refine Prog.sat_bind (sat_stageMove H (hsteady _) hs
    (N := fun done s => done = true → Quarantined s ∨ .embeddeddolt ∈ rest) ?_ ?_) ?_
  · intro t
    split
    · exact ⟨_, _, _, _, _, _, rfl⟩
    · exact ⟨_, _, _, _, _, _, rfl⟩
  · intro t hinv hknown hallowed
    cases hq : t.quarantine.has (.runtime name) with
    | true =>
      have hsame := sameLayout_op t (.rename name)
      refine ⟨hinv.of_same hsame, hsame.held.grows, fun _ => ?_⟩
      rcases hknown with h | hmem
      · exact Or.inl h
      · rcases List.mem_cons.mp hmem with rfl | hrest
        · exact Or.inl hq
        · exact Or.inr hrest
    | false =>
      cases hrepo : t.repo.has (.runtime name) with
      | false =>
        have hsame := sameLayout_op t (.rename name)
        exact ⟨hinv.of_same hsame, hsame.held.grows, fun h => (by cases h)⟩
      | true =>
        obtain ⟨hinv', hgrows⟩ := layoutInv_rename hinv hq hrepo (.rename name)
        refine ⟨hinv', hgrows, fun _ => ?_⟩
        have hmono : Quarantined t → Quarantined { t.rename (.runtime name) with
            lastOp := some (.rename name) } := by
          intro h
          rw [Quarantined, StoreWorld.quarantined, Store.databasePresent, Store.has,
            hgrows.quarantine _ h]
          exact h
        rcases hknown with h | hmem
        · exact Or.inl (hmono h)
        · rcases List.mem_cons.mp hmem with rfl | hrest
          · exact Or.inl (quarantined_rename hrepo _)
          · exact Or.inr hrest
  · intro done t ht
    split
    · rename_i hdone
      exact ⟨ht.born, ht.inside, ht.known hdone⟩
    · trivial

theorem mem_listRuntimeEntries {listing : DirListing} {store : Store χ} {name : RuntimeEntry} :
    name ∈ listRuntimeEntries listing store ↔ store.has (.runtime name) = true := by
  rw [listRuntimeEntries, List.mem_filterMap]
  constructor
  · rintro ⟨entry, -, hentry⟩
    cases entry with
    | runtime other =>
      dsimp only at hentry
      split at hentry
      · obtain rfl := Option.some.inj hentry
        assumption
      · cases hentry
    | copied other => cases hentry
  · intro h
    exact ⟨.runtime name, listing.complete _, if_pos h⟩

theorem sat_quarantineStage (H : LayoutRuns V D) {sourceSnapshot : StoreIdentity}
    {s : StoreWorld ι χ} (hs : Stage input.process (fun _ => True) s) :
    (quarantineStage site input sourceSnapshot).Sat (layoutRules V D input.process input)
      (fun _ => Stage input.process Quarantined) (fun _ _ => True) s := by
  have htrue : Steady fun _ : StoreWorld ι χ => True := fun _ _ _ _ => trivial
  -- where nothing is quarantined yet, the snapshot at hand leads on to the quarantine
  refine Prog.sat_bind (sat_stageLook H quiet_look htrue (N := fun progress s =>
    ¬ (progress.1 = some .snapshotPrepared ∨
      (progress.1 = some .legacyActive ∧ progress.2 = true)) → Quarantined s) ?_ hs ?_) ?_
  · intro progress t u h ht hcond
    exact steady_quarantined t u h (ht hcond)
  · intro t hinv _ hcond
    cases hq : t.quarantined with
    | true => exact hq
    | false =>
      refine absurd (Or.inl (derivePhase_of_snapshot ?_ hq sourceSnapshot)) hcond
      rw [(hinv.fresh hq).managed]
      rfl
  intro progress t ht
  split
  · have hwithin : (withSideEffect input .quarantineLegacy (quarantineLegacyStore input)).Sat
        (layoutRules V D input.process input) (fun _ => Stage input.process Quarantined)
        (fun _ _ => True) t := by
      have ht' : Stage input.process (fun _ => True) t := ⟨ht.born, ht.inside, trivial⟩
      refine Prog.sat_bind (sat_stageQuiet H quiet_maybeCrash htrue ht') fun _ u hu => ?_
      refine Prog.sat_bind (Q := fun _ => Stage input.process Quarantined) ?_ ?_
      · refine Prog.sat_bind (sat_stageLook H quiet_look htrue
          (N := fun names s => Quarantined s ∨ .embeddeddolt ∈ names) ?_ hu ?_) ?_
        · intro names t u h ht
          rcases ht with hq | hmem
          · exact Or.inl (steady_quarantined t u h hq)
          · exact Or.inr hmem
        · intro t hinv _
          cases hq : t.quarantined with
          | true => exact Or.inl hq
          | false =>
            refine Or.inr (mem_listRuntimeEntries.mpr ?_)
            exact (Store.fullyInitialized_iff.mp (hinv.fresh hq).repo).2
        · intro names u hu
          refine Prog.sat_mono (sat_forNames (K := fun names => Stage input.process fun s =>
            Quarantined s ∨ .embeddeddolt ∈ names) ?_ hu) ?_ fun _ _ h => h
          · exact fun name rest t ht => sat_quarantineEntry H ht
          · rintro _ u ⟨hborn, hinside, hknown⟩
            refine ⟨hborn, hinside, ?_⟩
            rcases hknown with hq | hmem
            · exact hq
            · cases hmem
      · intro _ u hu
        exact Prog.sat_bind (sat_stageQuiet H quiet_maybeCrash steady_quarantined hu)
          fun _ _ h => h
    refine Prog.sat_bind hwithin fun _ u hu => ?_
    exact sat_stageQuiet H (quiet_appendJournalPhase (by decide)) steady_quarantined hu
  · rename_i hcond
    exact ⟨ht.born, ht.inside, ht.known hcond⟩

def Unverified (s : StoreWorld ι χ) : Prop := .verified ∉ s.phases

theorem Steady.and {G G' : StoreWorld ι χ → Prop} (hG : Steady G) (hG' : Steady G') :
    Steady fun s => G s ∧ G' s :=
  fun s t h hs => ⟨hG s t h hs.1, hG' s t h hs.2⟩

theorem Steady.imp {c : Prop} {G : StoreWorld ι χ → Prop} (hG : Steady G) :
    Steady fun s => c → G s :=
  fun s t h hs hc => hG s t h (hs hc)

theorem steady_unverified : Steady (Unverified (ι := ι) (χ := χ)) :=
  fun _ _ h hs hverified => hs (h.verified.mp hverified)

theorem steady_redirect : Steady fun s : StoreWorld ι χ => s.redirect = true :=
  fun _ _ h hs => h.redirect.trans hs

theorem steady_managed : Steady fun s : StoreWorld ι χ => s.managed.fullyInitialized = true :=
  fun _ _ h hs => h.managed hs

theorem Stage.mono {G G' : StoreWorld ι χ → Prop} {s : StoreWorld ι χ} (h : Stage i G s)
    (hG : G s → G' s) : Stage i G' s :=
  ⟨h.born, h.inside, hG h.known⟩

theorem layoutInv_copy {t : StoreWorld ι χ} (h : LayoutInv V t) (hq : Quarantined t)
    {from_ : StoreDir} {entry : StoreEntry} (hmanaged : t.managed.has entry = false)
    (hsource : entry = .database → from_ = .quarantine) (op : MigrationOp) :
    LayoutInv V { t with
      managed := Function.update t.managed entry (t.store from_ entry), lastOp := some op } := by
  refine h.of_move rfl rfl (fun hfresh => absurd (hq.symm.trans hfresh) (by decide))
    h.repoGone ?_ ?_
  · intro q hdb
    have hold := h.kept q hdb
    dsimp only at hdb ⊢
    rw [Function.update_apply]
    split
    · rename_i heq
      subst heq
      have hnone : t.managed .database = none := Store.databaseAbsent_iff.mp hmanaged
      have hcopy : t.store from_ .database = some q := by
        rw [hsource rfl]
        exact hdb
      rw [hcopy]
      refine ⟨fun m hm => ?_, fun hm => (by cases hm)⟩
      obtain rfl := Option.some.inj hm
      exact ⟨V.refl q, hold.2 hnone⟩
    · exact hold
  · intro hverified
    obtain ⟨hredirect, hfull⟩ := h.verified hverified
    refine ⟨hredirect, ?_⟩
    rw [Store.fullyInitialized_iff] at hfull ⊢
    dsimp only
    rw [Store.has_update, Store.has_update]
    constructor
    · rw [if_neg fun heq => absurd (heq ▸ hmanaged) (by rw [hfull.1]; decide)]
      exact hfull.1
    · rw [if_neg fun heq => absurd (heq ▸ hmanaged) (by rw [hfull.2]; decide)]
      exact hfull.2

theorem sat_copyEntry (H : LayoutRuns V D) {from_ : StoreDir} {entry : StoreEntry}
    (hsource : entry = .database → from_ = .quarantine) {s : StoreWorld ι χ}
    (hs : Stage input.process Quarantined s) :
    (copyEntry from_ entry).Sat (layoutRules V D input.process input)
      (fun _ => Stage input.process Quarantined) (fun _ _ => True) s := by
  refine sat_stageMove H steady_quarantined hs ?_ ?_
  · intro t
    split
    · exact ⟨_, _, _, _, _, _, rfl⟩
    · exact ⟨_, _, _, _, _, _, rfl⟩
  · intro t hinv hq hallowed
    split
    · have hsame := sameLayout_op t (.copy entry)
      exact ⟨hinv.of_same hsame, hsame.held.grows, hq⟩
    · rename_i hcond
      have hmanaged : t.managed.has entry = false := by
        cases hhas : t.managed.has entry with
        | false => rfl
        | true => simp [hhas] at hcond
      refine ⟨layoutInv_copy hinv hq hmanaged hsource _, ?_, hq⟩
      exact { quarantine := fun _ _ => rfl, redirect := id, verified := id }

theorem sat_copyManagedStore (H : LayoutRuns V D) {s : StoreWorld ι χ}
    (hs : Stage input.process Quarantined s) :
    (copyManagedStore input).Sat (layoutRules V D input.process input)
      (fun _ => Stage input.process Quarantined) (fun _ _ => True) s := by
  refine Prog.sat_bind (sat_stageQuiet H quiet_look steady_quarantined hs) fun names t ht => ?_
  refine Prog.sat_bind (sat_forNames (K := fun _ => Stage input.process Quarantined)
    (fun name rest t ht => sat_copyEntry H (fun _ => rfl) ht) ht) fun _ t ht => ?_
  refine sat_forNames (K := fun _ => Stage input.process Quarantined) ?_ ht
  intro name rest t ht
  refine sat_copyEntry H (fun h : StoreEntry.copied name = .database => ?_) ht
  cases h

theorem sat_removeManagedStore (H : LayoutRuns V D) {s : StoreWorld ι χ}
    (hs : Stage input.process (fun s => Quarantined s ∧ Unverified s) s) :
    removeManagedStore.Sat (layoutRules V D input.process input)
      (fun _ => Stage input.process Quarantined) (fun _ _ => True) s := by
  refine sat_stageMove H (steady_quarantined.and steady_unverified) hs
    (fun _ => ⟨_, _, _, _, _, _, rfl⟩) ?_
  rintro t hinv ⟨hq, hunverified⟩ hallowed
  refine ⟨?_, { quarantine := fun _ _ => rfl, redirect := id, verified := id }, hq⟩
  refine hinv.of_move rfl rfl (fun hfresh => absurd (hq.symm.trans hfresh) (by decide))
    hinv.repoGone ?_ fun hverified => absurd hverified hunverified
  intro q hdb
  obtain ⟨hsome, hnone⟩ := hinv.kept q hdb
  refine ⟨fun m hm => (by cases hm), fun _ => ?_⟩
  cases hm : t.managed .database with
  | none => exact hnone hm
  | some m => exact V.trans _ _ _ (hsome m hm).2 (hallowed.spared rfl m q hm hdb)

theorem sat_copyStage (H : LayoutRuns V D) {sourceSnapshot : StoreIdentity}
    {s : StoreWorld ι χ} (hs : Stage input.process Quarantined s) :
    (copyStage site input sourceSnapshot).Sat (layoutRules V D input.process input)
      (fun _ => Stage input.process Quarantined) (fun _ _ => True) s := by
  have hboth : Steady fun s : StoreWorld ι χ => Quarantined s ∧ Unverified s :=
    steady_quarantined.and steady_unverified
  refine Prog.sat_bind (sat_stageLook H quiet_look steady_quarantined
    (N := fun copy s => Quarantined s ∧ (copy = true → Unverified s))
    (fun copy => steady_quarantined.and steady_unverified.imp) hs ?_) ?_
  · intro t _ hq
    refine ⟨hq, fun hcopy => ?_⟩
    simp only [needsCopy, Bool.and_eq_true, decide_eq_true_eq] at hcopy
    exact hcopy.1.2
  intro copy t ht
  split
  · rename_i hcopy
    have ht' : Stage input.process (fun s => Quarantined s ∧ Unverified s) t :=
      ht.mono fun h => ⟨h.1, h.2 hcopy⟩
    refine Prog.sat_bind (Q := fun _ => Stage input.process Quarantined) ?_ ?_
    · refine Prog.sat_bind (sat_stageQuiet H quiet_maybeCrash hboth ht') fun _ u hu => ?_
      refine Prog.sat_bind (Prog.sat_bind (sat_removeManagedStore H hu)
        fun _ w hw => sat_copyManagedStore H hw) fun _ w hw => ?_
      exact Prog.sat_bind (sat_stageQuiet H quiet_maybeCrash steady_quarantined hw)
        fun _ _ h => h
    · intro _ u hu
      exact sat_stageQuiet H (quiet_appendJournalPhase (by decide)) steady_quarantined hu
  · exact ht.mono fun h => h.1

theorem sat_redirectStage (H : LayoutRuns V D) {sourceSnapshot : StoreIdentity}
    {s : StoreWorld ι χ} (hs : Stage input.process Quarantined s) :
    (redirectStage site input sourceSnapshot).Sat (layoutRules V D input.process input)
      (fun _ => Stage input.process fun s => s.redirect = true) (fun _ _ => True) s := by
  refine Prog.sat_bind (sat_stageLook H quiet_look steady_quarantined
    (N := fun install s => Quarantined s ∧ (install = false → s.redirect = true))
    (fun install => steady_quarantined.and steady_redirect.imp) hs ?_) ?_
  · intro t _ hq
    refine ⟨hq, fun hinstall => ?_⟩
    have hkind : (resolveHubTaskStore site t).kind = .redirect := by
      simp only [needsRedirect, Bool.or_eq_false_iff, decide_eq_false_iff_not, ne_eq,
        not_not] at hinstall
      exact hinstall.1.1
    exact resolve_kind_redirect.mp hkind
  intro install t ht
  split
  · have ht' : Stage input.process Quarantined t := ht.mono fun h => h.1
    refine Prog.sat_bind (Q := fun _ => Stage input.process fun s => s.redirect = true) ?_ ?_
    · refine Prog.sat_bind (sat_stageQuiet H quiet_maybeCrash steady_quarantined ht')
        fun _ u hu => ?_
      refine Prog.sat_bind (Q := fun _ => Stage input.process fun s => s.redirect = true) ?_ ?_
      · refine sat_stageMove H steady_quarantined hu (fun _ => ⟨_, _, _, _, _, _, rfl⟩) ?_
        intro t hinv hq _
        refine ⟨?_, { quarantine := fun _ _ => rfl, redirect := fun _ => rfl, verified := id },
          rfl⟩
        exact hinv.of_move rfl rfl
          (fun hfresh => absurd (hq.symm.trans hfresh) (by decide)) hinv.repoGone hinv.kept
          fun hverified => ⟨rfl, (hinv.verified hverified).2⟩
      · intro _ w hw
        exact Prog.sat_bind (sat_stageQuiet H quiet_maybeCrash steady_redirect hw)
          fun _ _ h => h
    · intro _ u hu
      exact sat_stageQuiet H (quiet_appendJournalPhase (by decide)) steady_redirect hu
  · rename_i hinstall
    exact ht.mono fun h => h.2 (by simpa using hinstall)

theorem fullyInitialized_of_verified {expected : StoreIdentity} {managed : Store χ}
    (h : managedStoreError site input expected managed = none) :
    managed.fullyInitialized = true := by
  cases hfull : managed.fullyInitialized with
  | true => rfl
  | false =>
    rw [managedStoreError, hfull] at h
    cases h

theorem sat_verifyStage (H : LayoutRuns V D) {sourceSnapshot : StoreIdentity}
    {s : StoreWorld ι χ} (hs : Stage input.process (fun s => s.redirect = true) s) :
    (verifyStage site input sourceSnapshot).Sat (layoutRules V D input.process input)
      (fun _ => Stage input.process fun s => .verified ∈ s.phases) (fun _ _ => True) s := by
  have hboth : Steady fun s : StoreWorld ι χ =>
      s.redirect = true ∧ s.managed.fullyInitialized = true :=
    steady_redirect.and steady_managed
  have hverified : Steady fun s : StoreWorld ι χ => .verified ∈ s.phases :=
    fun _ _ h hs => h.verified.mpr hs
  refine Prog.sat_bind (Q := fun _ => Stage input.process fun s =>
    s.redirect = true ∧ s.managed.fullyInitialized = true) ?_ ?_
  · refine Prog.sat_bind (sat_stageQuiet H quiet_maybeCrash steady_redirect hs)
      fun _ t ht => ?_
    refine Prog.sat_bind (Q := fun _ => Stage input.process fun s =>
      s.redirect = true ∧ s.managed.fullyInitialized = true) ?_ ?_
    · refine Prog.sat_bind (sat_stageLook H (quiet_step rfl ?_) steady_redirect
        (N := fun error s => s.redirect = true ∧
          (error = none → s.managed.fullyInitialized = true))
        (fun error => steady_redirect.and steady_managed.imp) ht ?_) ?_
      · intro s
        split
        · exact ⟨_, _, _, _, rfl⟩
        · exact ⟨_, _, _, _, rfl⟩
      · exact fun t _ hredirect => ⟨hredirect, fullyInitialized_of_verified⟩
      · intro error u hu
        cases error with
        | some e => trivial
        | none => exact hu.mono fun h => ⟨h.1, h.2 rfl⟩
    · intro _ u hu
      exact Prog.sat_bind (sat_stageQuiet H quiet_maybeCrash hboth hu) fun _ _ h => h
  intro _ t ht
  refine Prog.sat_bind (Q := fun _ => Stage input.process fun s => .verified ∈ s.phases) ?_ ?_
  · refine sat_stageMove H hboth ht ?_ ?_
    · intro t
      split
      · exact ⟨_, _, _, _, _, _, rfl⟩
      · exact ⟨_, _, _, _, _, _, rfl⟩
    rintro t hinv ⟨hredirect, hfull⟩ _
    split
    · rename_i hrecorded
      have hsame := sameLayout_op t .journal
      exact ⟨hinv.of_same hsame, hsame.held.grows, hrecorded⟩
    · refine ⟨?_, { quarantine := fun _ _ => rfl, redirect := id, verified := ?_ }, ?_⟩
      · refine hinv.of_move rfl rfl (fun hq => ?_) hinv.repoGone hinv.kept
          fun _ => ⟨hredirect, hfull⟩
        exact absurd ((hinv.fresh hq).redirect.symm.trans hredirect) (by decide)
      · exact fun h => mem_readJournalPhases_append.mpr (Or.inl h)
      · exact mem_readJournalPhases_append.mpr (Or.inr rfl)
  · exact fun _ u hu => sat_stageQuiet H quiet_clearPending hverified hu

theorem sat_moveStore (H : LayoutRuns V D) {sourceSnapshot : StoreIdentity}
    {s : StoreWorld ι χ} (hs : Stage input.process (fun _ => True) s) :
    (moveStore site input sourceSnapshot).Sat (layoutRules V D input.process input)
      (OutcomeKnown V input.process true) (fun _ _ => True) s := by
  refine Prog.sat_bind (sat_quarantineStage H hs) fun _ t ht => ?_
  refine Prog.sat_bind (sat_copyStage H ht) fun _ t ht => ?_
  refine Prog.sat_bind (sat_redirectStage H ht) fun _ t ht => ?_
  exact Prog.sat_bind (sat_verifyStage H ht) fun _ t ht => ht.known

theorem Knows.stage {F : Store χ → Prop} {s : StoreWorld ι χ} (h : Knows V i true F s) :
    Stage i (fun _ => True) s :=
  ⟨h.born, h.inside, trivial⟩

theorem sat_migrateUnderLease (H : LayoutRuns V D) {s : StoreWorld ι χ}
    (hs : Knows V input.process true (Clear resolution) s) :
    (migrateUnderLease site input resolution).Sat (layoutRules V D input.process input)
      (OutcomeKnown V input.process true) (fun _ _ => True) s := by
  refine Prog.sat_bind (sat_quietMove H quiet_look hs) fun stored t ht => ?_
  refine Prog.sat_bind (sat_recordLegacyActive H ht) fun deferral t ht => ?_
  cases deferral with
  | some outcome => exact ht
  | none =>
    refine Prog.sat_bind (sat_quietMove H quiet_prepareSnapshot ht) fun snapshot t ht => ?_
    refine Prog.sat_bind (sat_quietMove H quiet_requireSnapshot ht) fun source t ht => ?_
    refine Prog.sat_bind (sat_checkSource H ht) fun deferral t ht => ?_
    cases deferral with
    | some outcome => exact ht
    | none => exact sat_moveStore H (Knows.stage ht)

/-! ### The lease -/

variable [DecidableEq ι]

theorem heldLayout_setInside (t : StoreWorld ι χ) (process : ι) (b : Bool) (lease : Option Nat)
    (op : MigrationOp) :
    HeldLayout t { t.setInside process b with lease := lease, lastOp := some op } where
  quarantine := rfl
  redirect := rfl
  verified := Iff.rfl
  managed := id

theorem layoutStep_setInside (t : StoreWorld ι χ) (process : ι) (b : Bool) (lease : Option Nat)
    (op : MigrationOp) :
    LayoutStep process t { t.setInside process b with lease := lease, lastOp := some op } where
  life := rfl
  others := fun _ hj => setInside_of_ne hj
  grows := (heldLayout_setInside t process b lease op).grows
  moved := Or.inl (heldLayout_setInside t process b lease op)

theorem layoutInv_setInside {t : StoreWorld ι χ} (h : LayoutInv V t) {process : ι} {b : Bool}
    (hborn : t.life process ≠ .unborn) (hsolo : b = true → Alone process t)
    (lease : Option Nat) (op : MigrationOp) :
    LayoutInv V { t.setInside process b with lease := lease, lastOp := some op } where
  fresh := fun hq => by
    obtain ⟨hredirect, hmanaged, hrepo, haccepted⟩ := h.fresh hq
    exact ⟨hredirect, hmanaged, hrepo, haccepted⟩
  repoGone := h.repoGone
  kept := h.kept
  verified := h.verified
  exclusive := by
    intro j hj hlife l hl hinside hlife'
    cases b with
    | false =>
      have hne : ∀ k, (t.setInside process false).inside k = true → k ≠ process := by
        rintro k hk rfl
        exact absurd (setInside_self.symm.trans hk) (by decide)
      have hj' := (setInside_of_ne (hne j hj)).symm.trans hj
      have hl' := (setInside_of_ne (hne l hinside)).symm.trans hinside
      exact h.exclusive j hj' hlife l hl hl' hlife'
    | true =>
      -- one of the two is not the process that takes the lease
      have hnot : ∀ k, k ≠ process → (t.setInside process true).inside k = true →
          t.life k ≠ .running :=
        fun k hk hin => hsolo rfl k hk ((setInside_of_ne hk).symm.trans hin)
      by_cases hjp : j = process
      · subst hjp
        exact hnot l hl hinside hlife'
      · exact hnot j hjp hj hlife
  unborn := by
    intro j hj
    by_cases hjp : j = process
    · subst hjp
      exact absurd hj hborn
    · exact (setInside_of_ne hjp).trans (h.unborn j hj)

theorem sat_acquireMigrationLease_layout (H : LayoutRuns V D) {inside : Bool}
    {s : StoreWorld ι χ} (hs : Knows V input.process inside (Clear resolution) s) :
    (acquireMigrationLease input).Sat (layoutRules V D input.process input)
      (fun acquired t => (acquired = true → Knows V input.process true (Clear resolution) t) ∧
        (acquired = false → Knows V input.process inside (Untouched resolution.beadsDir) t))
      (fun _ _ => True) s := by
  refine Prog.sat_bind (sat_lookAt H same_read hs (G := fun owner q => Clear resolution q ∧
    (owner.isSome = true → Untouched resolution.beadsDir q)) ?_) ?_
  · intro t _ hallowed hcalm hclear
    refine ⟨hclear, fun howner => ?_⟩
    -- an owner stands in the way only while the quarantine is empty
    refine hclear.untouched ?_
    cases hq : t.quarantine.databasePresent with
    | false => rfl
    | true =>
      have hnone := (hallowed.calm hcalm).lease rfl ⟨_, hq⟩
      rw [hnone] at howner
      cases howner
  intro owner t ht
  split
  · rename_i howner
    refine ⟨fun h => (by cases h), fun _ => ht.mono fun _ h => h.2 howner⟩
  · intro u hrely hinv hallowed
    have hallowed' := H.allowed _ _ _ _ hallowed
    have hlater := ht.later hrely hinv hallowed'
    refine ⟨layoutStep_setInside u _ _ _ _,
      layoutInv_setInside hinv hlater.born (fun _ => hallowed'.solo rfl) _ _, ?_, ?_⟩
    · intro _
      exact ⟨hlater.born, setInside_self, hlater.fresh, fun hcalm => (hlater.calm hcalm).1⟩
    · intro h
      cases h

theorem sat_releaseMigrationLease_layout (H : LayoutRuns V D) {outcome : MigrationOutcome}
    {s : StoreWorld ι χ} (hs : OutcomeKnown V input.process true outcome s) :
    (releaseMigrationLease input).Sat (layoutRules V D input.process input)
      (fun _ => OutcomeKnown V input.process false outcome) (fun _ _ => True) s := by
  intro t hrely hinv hallowed
  have hallowed' := H.allowed _ _ _ _ hallowed
  refine ⟨layoutStep_setInside t _ _ _ _,
    layoutInv_setInside hinv hallowed'.born (fun h => by cases h) _ _, ?_⟩
  cases outcome with
  | notNeeded reason phase beadsDir =>
    cases reason with
    | verified => exact hrely.grows.verified hs
    | uninitialized => trivial
    | managed => trivial
    | redirect => trivial
    | legacy => trivial
  | migrated phase beadsDir backupDir journalPath => exact hrely.grows.verified hs
  | deferred deferral =>
    have hlater := Knows.later hs hrely hinv hallowed'
    exact ⟨hlater.born, setInside_self, hlater.fresh, hlater.calm⟩
  | splitBrain => trivial

theorem sat_releaseAfterError (H : LayoutRuns V D) {s : StoreWorld ι χ} :
    (releaseMigrationLease input).Sat (layoutRules V D input.process input)
      (fun _ _ => True) (fun _ _ => True) s := by
  intro t _ hinv hallowed
  have hallowed' := H.allowed _ _ _ _ hallowed
  exact ⟨layoutStep_setInside t _ _ _ _,
    layoutInv_setInside hinv hallowed'.born (fun h => by cases h) _ _, trivial⟩

/-! ### The call -/

theorem sat_attemptMigration (H : LayoutRuns V D) {phase : Option MigrationPhase}
    {quarantinePresent : Bool} {inside : Bool} {s : StoreWorld ι χ}
    (hs : Knows V input.process inside (fun q => Begun resolution q ∧
      q.databasePresent = quarantinePresent) s) :
    (attemptMigration site input resolution phase quarantinePresent).Sat
      (layoutRules V D input.process input) (OutcomeOk V) (fun _ _ => True) s := by
  -- where something is quarantined, the database is, and no pending record blocks the call
  refine Prog.sat_bind (sat_lookAt H same_read hs (G := fun blocking q => Clear resolution q ∧
    q.databasePresent = quarantinePresent ∧
    (blocking.isSome = true → Untouched resolution.beadsDir q)) ?_) ?_
  · rintro t _ hallowed hcalm ⟨hbegun, hpresent⟩
    have hpending := (hallowed.calm hcalm).pending rfl
    have hclear : Clear resolution t.quarantine :=
      ⟨hbegun, fun htouched => (hpending htouched).1⟩
    refine ⟨hclear, hpresent, fun hblocking => hclear.untouched ?_⟩
    cases hq : t.quarantine.databasePresent with
    | false => rfl
    | true =>
      obtain ⟨pending, hfilter⟩ := Option.isSome_iff_exists.mp hblocking
      obtain ⟨hsome, hblocks⟩ := Option.filter_eq_some_iff.mp hfilter
      have hfree := (hpending ⟨_, hq⟩).2 pending hsome
      exact absurd (hfree.symm.trans hblocks) (by decide)
  intro blocking t ht
  cases blocking with
  | some pending =>
    have hknown : OutcomeKnown V input.process inside (.deferred
        (deferredOutcomeFromPending site pending resolution.beadsDir
          (pending.blockReason input.now))) t :=
      ht.mono fun _ h => h.2.2 rfl
    exact hknown.ok
  | none =>
    refine Prog.sat_bind (sat_captureBeforeLease H (ht.mono fun _ h => ⟨h.1, h.2.1⟩))
      fun stop t ht => ?_
    cases stop with
    | some outcome => exact OutcomeKnown.ok ht
    | none =>
      refine Prog.sat_bind (sat_acquireMigrationLease_layout H ht) fun acquired t ht => ?_
      cases acquired with
      | false =>
        exact Prog.sat_bind (sat_deferMigration H (ht.2 rfl)) fun _ _ h => h.ok
      | true =>
        refine Prog.sat_mono (Prog.sat_finallyDo_of (sat_migrateUnderLease H (ht.1 rfl))
          (fun outcome t ht => sat_releaseMigrationLease_layout H ht)
          (fun _ _ _ => sat_releaseAfterError H)) (fun _ _ h => h.ok) fun _ _ h => h

theorem sat_ensureHubTaskStoreMigrated_layout (H : LayoutRuns V D) (site : StoreSite)
    {s : StoreWorld ι χ} (hinv : LayoutInv V s) (hborn : s.life input.process ≠ .unborn) :
    (ensureHubTaskStoreMigrated site input).Sat (layoutRules V D input.process input)
      (OutcomeOk V) (fun _ _ => True) s := by
  have hstart : Knows V input.process (s.inside input.process) (fun _ => True) s :=
    ⟨hborn, rfl, fun hq => (hinv.fresh hq).repo, fun _ => trivial⟩
  unfold ensureHubTaskStoreMigrated
  split
  · trivial
  refine Prog.sat_bind (sat_lookAt H same_read hstart (G := Begun)
    fun t hinv _ _ _ => begun_resolve hinv) fun resolution t ht => ?_
  cases resolution.redirectError with
  | some message => trivial
  | none =>
    refine Prog.sat_bind (sat_quietMove H quiet_look ht) fun splitBrain t ht => ?_
    split
    · exact Prog.sat_bind (sat_quietMove H (quiet_appendJournalRecord (by simp)) ht)
        fun _ _ _ => trivial
    -- the phase `verified` is read from the journal, so the record is there
    refine Prog.sat_bind (Q := fun inspection t =>
      (inspection.1 = some .verified → .verified ∈ t.phases) ∧
      Knows V input.process (s.inside input.process) (fun q => Begun resolution q ∧
        q.databasePresent = inspection.2) t) ?_ ?_
    · intro u hrely hinv hallowed
      have hlater := ht.later hrely hinv (H.allowed _ _ _ _ hallowed)
      have hsame := sameLayout_op u .read
      refine ⟨hsame.layoutStep, hinv.of_same hsame, verified_of_derivePhase, ?_⟩
      exact (hlater.of_same hsame).mono fun _ h => ⟨h, rfl⟩
    rintro inspection u ⟨hverified, hknown⟩
    split
    · rename_i hcond
      exact hverified hcond.1
    split
    · cases resolution.kind <;> trivial
    · exact sat_attemptMigration H hknown

theorem layout_holds (H : LayoutRuns V D) (site : StoreSite) :
    (layoutContract V).Holds D (migrationCode site) where
  rely_refl := LayoutRely.refl
  rely_trans := fun i s t u => LayoutRely.trans
  guar_rely := by
    intro i k s t t' j hj hinv hguar
    refine { own := fun hborn => ?_, grows := hguar.grows, held := fun _ hinside hrun => ?_ }
    · exact ⟨hguar.life ▸ hborn, fun h => hguar.life ▸ h, hguar.others j hj⟩
    · rcases hguar.moved with hheld | ⟨hother, hlife⟩
      · exact hheld
      · rw [hguar.life] at hrun
        exact absurd hrun (hinv.exclusive i hother hlife j hj hinside)
  env_keeps := by
    intro s t hinv henv
    obtain ⟨hinv', hlife, hinside, hheld⟩ := H.env s t hinv henv
    exact ⟨hinv', fun j => ⟨OwnLife.of_env hlife hinside j, hheld.grows, fun _ _ _ => hheld⟩⟩
  sat := by
    intro i k s hinv hstart
    obtain ⟨rfl, hrun⟩ := H.start i k s hstart
    have hborn : s.life k.process ≠ .unborn := by
      rw [hrun]
      decide
    refine Prog.sat_mono (sat_ensureHubTaskStoreMigrated_layout H site hinv hborn) ?_
      fun _ _ _ => ?_
    · intro outcome t hok outcome' heq
      cases heq
      exact hok
    · intro outcome h
      cases h

end

end ArchLoop
