import ArchLoop.Coordinator
import ArchLoop.Lib.Pool

/-!
# `ArchLoop.Proofs.LeaseExclusion`: when the landing lease excludes

The processes of a `Contenders` take and give back the landing lease, each with its own
identity and its own nonces. `leaseHeld` is the history of a run: a process holds the lease
from the moment that its call returns `acquired` until it removes the lease file or is gone.

The lease file is read, probed and written in separate steps. `bothAcquire` is a run in which
two live processes hold the lease: both read the file before either writes it.

`LeaseUndisturbed` is the condition that rules this out. A call that changes the lease file
finds it as its last step left it, and the process table shows the process that runs it. In
the runs whose steps meet it, the lease of a live process stays its own until it gives it back
(`leaseContract_holds`). So no two live processes hold it, and a release removes only a lease
with its nonce (`landingLease_exclusive`).
-/

set_option autoImplicit false

namespace ArchLoop

open ArchLoop.Lib

inductive LeaseCall where
  | acquire (call : HubCall)
  | release (ownerNonce : String)

def LeaseCall.nonce : LeaseCall → String
  | .acquire call => call.uuid
  | .release ownerNonce => ownerNonce

/-- The program of a call. Its result is the lease that was acquired. -/
def leaseCode {ι : Type} : ι → LeaseCall → Hub (Option HubLandingLease)
  | _, .acquire call => do
    match ← acquireHubLandingLease call with
    | .acquired lease => return some lease
    | .pendingContention _ _ _ => return none
  | _, .release ownerNonce => do
    releaseHubLandingLease (some ownerNonce)
    return none

/-- The processes that contend for the lease.

- `identity`: who each of them is, with a pid, a start and a boot of its own.
- `nonceOwner`: the process that drew the nonce, if one of them did. -/
structure Contenders (ι : Type) where
  identity : ι → HubLandingProcessIdentity
  identity_injective : Function.Injective identity
  nonceOwner : String → Option ι

section
variable {ι : Type} (P : Contenders ι)

/-- The process table shows the process: it has its boot, its start and is alive. -/
def LiveIn (s : HubWorld) (i : ι) : Prop :=
  s.processes.bootIdentity.getD "unknown" = (P.identity i).bootIdentity ∧
    s.processes.startIdentity (P.identity i).pid = some (P.identity i).processStartIdentity ∧
    s.processes.alive (P.identity i).pid = true

def OwnedBy (s : HubWorld) (i : ι) : Prop :=
  ∃ lease, s.lease = some lease ∧ lease.toHubLandingProcessIdentity = P.identity i

/-- The nonce in the lease file tells whose lease it is. -/
def NonceTells (s : HubWorld) : Prop :=
  ∀ lease, s.lease = some lease →
    ∀ i, lease.toHubLandingProcessIdentity = P.identity i ↔ P.nonceOwner lease.ownerNonce = some i

/-- The call is the process's own: it has its pid and one of its nonces. -/
def LeaseCall.By (i : ι) (k : LeaseCall) : Prop :=
  P.nonceOwner k.nonce = some i ∧ k.nonce ≠ "" ∧
    ∀ call, k = .acquire call → call.pid = (P.identity i).pid

/-- The step of a call from `t` to `t'`, when its last step left `seen`: the process table
shows the process, and a step that changes the lease file finds it as the call left it. -/
def LeaseUndisturbed (k : LeaseCall) (seen t t' : HubWorld) : Prop :=
  (∀ i, P.nonceOwner k.nonce = some i → LiveIn P t i) ∧
    (t'.lease ≠ t.lease → t.lease = seen.lease)

/-- Runs in which each process makes its own calls, nothing else writes the lease file, and a
process that is gone does not come back. `allowed` says which steps the runs take. -/
def leaseRuns (allowed : LeaseCall → HubWorld → HubWorld → HubWorld → Prop) :
    Discipline ι LeaseCall HubWorld where
  start := fun i k _ => k.By P i
  env := fun s t => t.lease = s.lease ∧ ∀ i, LiveIn P t i → LiveIn P s i
  allowed := allowed

/-- What a step of the process `i` in the call `k` does to the lease file. Acquiring takes it
for `i` and from no other live process; releasing removes a lease with the nonce of the call,
which is `i`'s. -/
def LeaseMove (i : ι) (k : LeaseCall) (s t : HubWorld) : Prop :=
  t.processes = s.processes ∧
    (t.lease = s.lease ∨
      match k with
      | .acquire _ => OwnedBy P t i ∧ ∀ j, j ≠ i → LiveIn P s j → ¬ OwnedBy P s j
      | .release ownerNonce => t.lease = none ∧ P.nonceOwner ownerNonce = some i ∧
          ∃ lease, s.lease = some lease ∧ lease.ownerNonce = ownerNonce)

/-- What the calls promise: while a process is live, its lease stays its own through the steps
of the others, and an acquired lease is its own. -/
def leaseContract : Contract ι LeaseCall HubWorld HubError (Option HubLandingLease) where
  inv := NonceTells P
  rely := fun i s t => (∀ j, LiveIn P t j → LiveIn P s j) ∧
    (LiveIn P t i → OwnedBy P s i → OwnedBy P t i)
  guar := fun i k _ => LeaseMove P i k
  post := fun i _ r s => ∀ lease, r = .ok (some lease) → OwnedBy P s i

variable {P}

theorem LiveIn.of_eq {s t : HubWorld} {i : ι} (h : t.processes = s.processes)
    (ht : LiveIn P t i) : LiveIn P s i := by
  rwa [LiveIn, h] at ht

theorem OwnedBy.of_eq {s t : HubWorld} {i : ι} (h : t.lease = s.lease) (hs : OwnedBy P s i) :
    OwnedBy P t i := by
  rwa [OwnedBy, ← h] at hs

theorem LiveIn.processIdentity {s : HubWorld} {i : ι} (h : LiveIn P s i) :
    s.processIdentity (P.identity i).pid = P.identity i := by
  obtain ⟨hboot, hstart, -⟩ := h
  simp only [HubWorld.processIdentity, hboot, hstart, Option.getD_some]

theorem isLiveHubLandingLeaseOwner_iff {s : HubWorld} {i : ι} {lease : HubLandingLease}
    (h : lease.toHubLandingProcessIdentity = P.identity i) :
    s.isLiveHubLandingLeaseOwner lease = true ↔ LiveIn P s i := by
  simp only [HubWorld.isLiveHubLandingLeaseOwner, LiveIn, ← h, Bool.and_eq_true, beq_iff_eq,
    and_assoc]

abbrev leaseRules (P : Contenders ι) (i : ι) (k : LeaseCall) : Rules HubWorld :=
  (leaseContract P).rules (leaseRuns P (LeaseUndisturbed P)) i k

theorem LeaseMove.refl {i : ι} {k : LeaseCall} (s : HubWorld) : LeaseMove P i k s s :=
  ⟨rfl, Or.inl rfl⟩

section
variable {i : ι} {k : LeaseCall} {s : HubWorld}

theorem sat_leaseRead {α β : Type} {Q : β → HubWorld → Prop} {E : HubError → HubWorld → Prop}
    {f : HubWorld → α} {g : α → Hub β}
    (h : ∀ t, NonceTells P t → LeaseUndisturbed P k s t t →
      Prog.Sat (leaseRules P i k) Q E (g (f t)) t) :
    Prog.Sat (leaseRules P i k) Q E ((Prog.reads f).bind g) s := by
  intro t _ hinv hallowed
  have hmove : LeaseMove P i k t t := LeaseMove.refl t
  exact ⟨hmove, hinv, h t hinv hallowed⟩

theorem sat_leaseRevParse {name : String} {ref : HubWorld → Option Oid} :
    Prog.Sat (leaseRules P i k) (fun _ _ => True) (fun _ _ => True) (revParse name ref) s := by
  refine Prog.sat_mono (Prog.Always.sat (P := Eq) (K := fun _ => True)
    (revParse_always (fun _ => rfl) name ref) ?_ (fun _ _ _ _ _ => trivial) trivial)
    (fun _ _ _ => trivial) fun _ _ _ => trivial
  rintro _ t t' hinv - rfl
  exact ⟨LeaseMove.refl t, hinv, trivial⟩

/-- The end of `acquireHubLandingLease`, after the read in the state `seen` found no live owner
in another process. -/
theorem sat_writeHubLandingLease {seen : HubWorld} {lease : HubLandingLease} {call : HubCall}
    (hfree : ∀ j, j ≠ i → LiveIn P seen j → ¬ OwnedBy P seen j)
    (hid : lease.toHubLandingProcessIdentity = P.identity i)
    (howner : P.nonceOwner lease.ownerNonce = some i) :
    Prog.Sat (leaseRules P i (.acquire call)) (fun _ _ => True) (fun _ _ => True)
      (writeHubLandingLease lease) seen := by
  intro t hrely _ hallowed
  refine ⟨⟨rfl, ?_⟩, ?_, trivial⟩
  · by_cases hsame : some lease = t.lease
    · exact Or.inl hsame
    · refine Or.inr ⟨⟨lease, rfl, hid⟩, ?_⟩
      intro j hj hlive howned
      have hlease : seen.lease = t.lease := (hallowed.2 hsame).symm
      exact hfree j hj (hrely.1 j hlive) (howned.of_eq hlease)
  · intro lease' hlease' j
    obtain rfl := Option.some.inj hlease'
    rw [hid, howner]
    constructor
    · intro h
      rw [P.identity_injective h]
    · intro h
      rw [Option.some.inj h]

theorem sat_acquireHubLandingLease {call : HubCall} (hby : LeaseCall.By P i (.acquire call)) :
    Prog.Sat (leaseRules P i (.acquire call))
      (fun r t => ∀ lease, r = .acquired lease → OwnedBy P t i) (fun _ _ => True)
      (acquireHubLandingLease call) s := by
  obtain ⟨howner, -, hpid⟩ := hby
  have hpid := hpid call rfl
  refine sat_leaseRead fun t₁ _ hallowed => ?_
  have hidentity : t₁.processIdentity call.pid = P.identity i := by
    rw [hpid]
    exact (hallowed.1 i howner).processIdentity
  rw [hidentity]
  refine Prog.sat_bind sat_leaseRevParse fun target _ _ => ?_
  refine Prog.sat_bind sat_leaseRevParse fun fence _ _ => ?_
  refine sat_leaseRead fun t _ _ => ?_
  cases hholder : t.lease.filter fun lease =>
      t.isLiveHubLandingLeaseOwner lease && !isSameProcessOwner lease (P.identity i) with
  | some owner =>
    dsimp only
    exact fun lease h => nomatch h
  | none =>
    dsimp only
    refine Prog.sat_bind (sat_writeHubLandingLease ?_ rfl howner) fun _ _ _ => ?_
    · rintro j hj hlive ⟨lease, hlease, hid⟩
      rw [hlease, Option.filter_eq_none_iff] at hholder
      refine hholder lease rfl ?_
      rw [Bool.and_eq_true, Bool.not_eq_true', isLiveHubLandingLeaseOwner_iff hid]
      refine ⟨hlive, beq_eq_false_iff_ne.mpr ?_⟩
      intro hsame
      exact hj (P.identity_injective (hid.symm.trans hsame))
    · refine sat_leaseRead fun u hinv _ => ?_
      cases hconfirmed : u.lease.filter fun c =>
          c.ownerNonce == (newLease (P.identity i) call.uuid target fence).ownerNonce with
      | some own =>
        dsimp only
        intro lease _
        obtain ⟨hlease, hnonce⟩ := Option.filter_eq_some_iff.mp hconfirmed
        refine ⟨own, hlease, (hinv own hlease i).mpr ?_⟩
        rw [beq_iff_eq.mp hnonce]
        exact howner
      | none =>
        dsimp only
        exact fun lease h => nomatch h

theorem sat_releaseHubLandingLease {ownerNonce : String}
    (hby : LeaseCall.By P i (.release ownerNonce)) :
    Prog.Sat (leaseRules P i (.release ownerNonce)) (fun _ _ => True) (fun _ _ => True)
      (releaseHubLandingLease (some ownerNonce)) s := by
  obtain ⟨howner, hne, -⟩ := hby
  refine sat_leaseRead fun t _ _ => ?_
  cases hlease : t.lease with
  | none => trivial
  | some current =>
    dsimp only
    split
    · trivial
    · rename_i hnonce
      simp only [Option.any_some, Bool.and_eq_true, bne_iff_ne, ne_eq, not_and, not_not] at hnonce
      intro u _ _ hallowed
      refine ⟨⟨rfl, ?_⟩, ?_, trivial⟩
      · by_cases hsame : none = u.lease
        · exact Or.inl hsame
        · exact Or.inr ⟨rfl, howner, current, (hallowed.2 hsame).trans hlease,
            (hnonce hne).symm⟩
      · exact fun lease h => nomatch h

theorem sat_leaseCode (hby : k.By P i) :
    Prog.Sat (leaseRules P i k) (fun r t => ∀ lease, r = some lease → OwnedBy P t i)
      (fun _ _ => True) (leaseCode i k) s := by
  cases k with
  | acquire call =>
    refine Prog.sat_bind (sat_acquireHubLandingLease hby) fun r t h => ?_
    cases r with
    | acquired lease => exact fun _ _ => h lease rfl
    | pendingContention owner oids message => exact fun _ hr => nomatch hr
  | release ownerNonce =>
    exact Prog.sat_bind (sat_releaseHubLandingLease hby) fun _ _ _ _ hr => nomatch hr

end

variable (P) in
theorem leaseContract_holds :
    (leaseContract P).Holds (leaseRuns P (LeaseUndisturbed P)) leaseCode where
  rely_refl := fun _ _ => ⟨fun _ h => h, fun _ h => h⟩
  rely_trans := by
    rintro i s t u ⟨hlive, howned⟩ ⟨hlive', howned'⟩
    exact ⟨fun j h => hlive j (hlive' j h), fun h hs => howned' h (howned (hlive' i h) hs)⟩
  guar_rely := by
    rintro i k s t t' j hj hinv ⟨hprocesses, hmove⟩
    refine ⟨fun l h => h.of_eq hprocesses, ?_⟩
    intro hlive howned
    rcases hmove with heq | hmove
    · exact howned.of_eq heq
    · cases k with
      | acquire call => exact absurd howned (hmove.2 j hj (hlive.of_eq hprocesses))
      | release ownerNonce =>
        obtain ⟨-, howner, lease, hlease, rfl⟩ := hmove
        obtain ⟨lease', hlease', hid⟩ := howned
        obtain rfl : lease = lease' := Option.some.inj (hlease.symm.trans hlease')
        have := ((hinv lease hlease j).mp hid).symm.trans howner
        exact absurd (Option.some.inj this) hj
  env_keeps := by
    rintro s t hinv ⟨hlease, hlive⟩
    exact ⟨fun lease h => hinv lease (hlease.symm.trans h), fun _ =>
      ⟨hlive, fun _ h => h.of_eq hlease⟩⟩
  sat := fun _ _ _ _ hby => Prog.sat_mono (sat_leaseCode hby)
    (fun _ _ h lease hr => h lease (Except.ok.inj hr)) fun _ _ _ _ hr => nomatch hr

end

/-! ### Who holds the lease -/

section
variable {ι : Type} [DecidableEq ι]

abbrev LeasePool (ι : Type) : Type :=
  Pool ι LeaseCall HubWorld HubError (Option HubLandingLease)

/-- The call that returned last acquired the lease. -/
def LeasePool.lastAcquired (c : LeasePool ι) : Bool :=
  match c.returns with
  | (_, .acquire _, .ok (some _)) :: _ => true
  | _ => false

def LeasePool.releasing (c : LeasePool ι) (i : ι) : Bool :=
  match c.threads i with
  | some ⟨.release _, _, _⟩ => true
  | _ => false

/-- Who holds the lease after the action that takes `c` to `c'`, when `held` says who did
before. A process takes it when its call returns the acquired lease, and gives it up when it
removes the lease file, or when it is lost. -/
def leaseHeld (c c' : LeasePool ι) (held : ι → Bool) : Action ι LeaseCall HubWorld → ι → Bool
  | .finish i => if LeasePool.lastAcquired c' then Function.update held i true else held
  | .step i =>
    if LeasePool.releasing c i && c.state.lease.isSome && c'.state.lease.isNone then
      Function.update held i false
    else held
  | .crash i => Function.update held i false
  | _ => held

/-- A pool with the history of who holds the lease. -/
structure LeaseHistory (ι : Type) where
  pool : LeasePool ι
  held : ι → Bool

/-- The history after one action, when the action can be taken. -/
def LeaseHistory.next (h : LeaseHistory ι) (a : Action ι LeaseCall HubWorld) :
    Option (LeaseHistory ι) :=
  (h.pool.next leaseCode a).map fun c' => ⟨c', leaseHeld h.pool c' h.held a⟩

/-- The history after a list of actions, when each of them can be taken. -/
def LeaseHistory.exec : LeaseHistory ι → List (Action ι LeaseCall HubWorld) →
    Option (LeaseHistory ι)
  | h, [] => some h
  | h, a :: as => (h.next a).bind fun h' => h'.exec as

/-- One action of a run, with the history after it. -/
def LeaseStep (P : Contenders ι) (allowed : LeaseCall → HubWorld → HubWorld → HubWorld → Prop)
    (h h' : LeaseHistory ι) : Prop :=
  ∃ a, (leaseRuns P allowed).Permits h.pool a ∧ h.next a = some h'

/-- The histories of the runs from a state in which nobody holds the lease. -/
def LeaseReach (P : Contenders ι) (allowed : LeaseCall → HubWorld → HubWorld → HubWorld → Prop)
    (s₀ : HubWorld) : LeaseHistory ι → Prop :=
  Relation.ReflTransGen (LeaseStep P allowed) ⟨Pool.idle s₀, fun _ => false⟩

theorem leaseReach_of_exec {P : Contenders ι}
    {allowed : LeaseCall → HubWorld → HubWorld → HubWorld → Prop} {h h' : LeaseHistory ι}
    (as : List (Action ι LeaseCall HubWorld)) (hrun : h.exec as = some h')
    (hp : h.pool.Permitted (leaseRuns P allowed) leaseCode as) :
    Relation.ReflTransGen (LeaseStep P allowed) h h' := by
  induction as generalizing h with
  | nil =>
    obtain rfl : h = h' := by simpa [LeaseHistory.exec] using hrun
    exact .refl
  | cons a as ih =>
    obtain ⟨h₁, hnext, hexec⟩ := Option.bind_eq_some_iff.mp hrun
    refine .head ⟨a, hp.1, hnext⟩ (ih hexec ?_)
    obtain ⟨c, hc, rfl⟩ := Option.map_eq_some_iff.mp hnext
    exact hp.2 c hc

variable {P : Contenders ι}

/-- A live process that holds the lease is the one that the lease file names. -/
def HeldOwned (P : Contenders ι) (h : LeaseHistory ι) : Prop :=
  ∀ i, h.held i = true → LiveIn P h.pool.state i → OwnedBy P h.pool.state i

theorem leaseHeld_step {c c' : LeasePool ι} {held : ι → Bool} {i j : ι}
    (h : leaseHeld c c' held (.step j) i = true) :
    held i = true ∧ (i = j → LeasePool.releasing c j = true → c.state.lease.isSome = true →
      c'.state.lease ≠ none) := by
  by_cases hremoved : LeasePool.releasing c j && c.state.lease.isSome && c'.state.lease.isNone
  · simp only [leaseHeld, if_pos hremoved] at h
    by_cases hij : i = j
    · rw [hij, Function.update_self] at h
      cases h
    · rw [Function.update_of_ne hij] at h
      exact ⟨h, fun heq => absurd heq hij⟩
  · simp only [leaseHeld, if_neg hremoved] at h
    refine ⟨h, fun _ hreleasing hsome hnone => hremoved ?_⟩
    rw [hreleasing, hsome, hnone]
    rfl

/-- A process that holds the lease after a call returned held it before, or its call returned
an acquired lease. -/
theorem leaseHeld_finish {c c' : LeasePool ι} {held : ι → Bool} {i j : ι}
    (h : leaseHeld c c' held (.finish j) i = true) :
    held i = true ∨ i = j ∧ LeasePool.lastAcquired c' = true := by
  by_cases hlast : LeasePool.lastAcquired c' = true
  · simp only [leaseHeld, if_pos hlast] at h
    by_cases hij : i = j
    · exact Or.inr ⟨hij, hlast⟩
    · rw [Function.update_of_ne hij] at h
      exact Or.inl h
  · simp only [leaseHeld, if_neg hlast] at h
    exact Or.inl h

/-- Step lemma: in an undisturbed run the holder stays the owner. -/
theorem heldOwned_step {h h' : LeaseHistory ι}
    (hok : (leaseContract P).Ok (leaseRuns P (LeaseUndisturbed P)) h.pool)
    (hstep : LeaseStep P (LeaseUndisturbed P) h h') (hinv : HeldOwned P h) : HeldOwned P h' := by
  obtain ⟨a, hp, hh'⟩ := hstep
  obtain ⟨c', hnext, rfl⟩ := Option.map_eq_some_iff.mp hh'
  intro i hi hlive
  dsimp only at hi hlive ⊢
  cases a with
  | start j k =>
    have hstate : c'.state = h.pool.state := by rw [Pool.next_start hnext]
    rw [hstate] at hlive ⊢
    exact hinv i hi hlive
  | step j =>
    obtain ⟨hi, hkept⟩ := leaseHeld_step hi
    obtain ⟨th, hth, hprocesses, hmove⟩ := hok.step_guar hp hnext
    have hlive' := hlive.of_eq hprocesses
    have howned := hinv i hi hlive'
    rcases hmove with heq | hmove
    · exact howned.of_eq heq
    by_cases hij : i = j
    · subst hij
      obtain ⟨k, rest, seen⟩ := th
      cases k with
      | acquire call => exact hmove.1
      | release n =>
        obtain ⟨hnone, -, lease, hlease, -⟩ := hmove
        exact absurd hnone (hkept rfl (by rw [LeasePool.releasing, hth]) (by rw [hlease]; rfl))
    · have hguar : LeaseMove P j th.call h.pool.state c'.state :=
        ⟨hprocesses, Or.inr hmove⟩
      exact ((leaseContract_holds P).guar_rely j th.call th.seen _ _ i hij hok.1 hguar).2
        hlive howned
  | crash j =>
    have hstate : c'.state = h.pool.state := by rw [Pool.next_crash hnext]
    rw [hstate] at hlive ⊢
    refine hinv i ?_ hlive
    simp only [leaseHeld] at hi
    by_cases hij : i = j
    · rw [hij, Function.update_self] at hi
      cases hi
    · rwa [Function.update_of_ne hij] at hi
  | finish j =>
    obtain ⟨k, r, seen, hreturns, hstate, hpost, hrely⟩ := hok.finish_post hnext
    rw [hstate] at hlive ⊢
    rcases leaseHeld_finish hi with hi | ⟨rfl, hlast⟩
    · exact hinv i hi hlive
    · unfold LeasePool.lastAcquired at hlast
      rw [hreturns] at hlast
      split at hlast
      · rename_i lease _ heq
        obtain ⟨hfirst, -⟩ := List.cons.inj heq
        obtain ⟨-, hcall⟩ := Prod.mk.inj hfirst
        obtain ⟨-, rfl⟩ := Prod.mk.inj hcall
        exact hrely.2 hlive (hpost lease rfl)
      · cases hlast
  | env s =>
    have hstate : c'.state = s := by rw [Pool.next_env hnext]
    rw [hstate] at hlive ⊢
    exact (hinv i hi (hp.2 i hlive)).of_eq hp.1

/-- Run lemma: so it is in every reachable history. -/
theorem heldOwned_reach {s₀ : HubWorld} (h₀ : NonceTells P s₀) {h : LeaseHistory ι}
    (hr : LeaseReach P (LeaseUndisturbed P) s₀ h) :
    (leaseContract P).Ok (leaseRuns P (LeaseUndisturbed P)) h.pool ∧ HeldOwned P h := by
  induction hr with
  | refl => exact ⟨Contract.ok_idle h₀, fun _ hi => nomatch hi⟩
  | tail _ hstep ih =>
    refine ⟨?_, heldOwned_step ih.1 hstep ih.2⟩
    obtain ⟨a, hp, hh'⟩ := hstep
    obtain ⟨c', hnext, rfl⟩ := Option.map_eq_some_iff.mp hh'
    exact (leaseContract_holds P).ok_next ih.1 hp hnext

/-- In every undisturbed run, of any number of processes with crashes and retries:

- no two live processes hold the lease,
- a step of a release that changes the lease file removes a lease with the nonce of the
  release. -/
theorem landingLease_exclusive {s₀ : HubWorld} (h₀ : NonceTells P s₀) {h : LeaseHistory ι}
    (hr : LeaseReach P (LeaseUndisturbed P) s₀ h) :
    (∀ i j, h.held i = true → h.held j = true → LiveIn P h.pool.state i →
      LiveIn P h.pool.state j → i = j) ∧
    (∀ i th n c', h.pool.threads i = some th → th.call = .release n →
      (leaseRuns P (LeaseUndisturbed P)).Permits h.pool (.step i) →
      h.pool.next leaseCode (.step i) = some c' → c'.state.lease ≠ h.pool.state.lease →
      ∃ lease, h.pool.state.lease = some lease ∧ lease.ownerNonce = n) := by
  obtain ⟨hok, howned⟩ := heldOwned_reach h₀ hr
  constructor
  · intro i j hi hj hlivei hlivej
    obtain ⟨lease, hlease, hid⟩ := howned i hi hlivei
    obtain ⟨lease', hlease', hid'⟩ := howned j hj hlivej
    obtain rfl : lease = lease' := Option.some.inj (hlease.symm.trans hlease')
    exact P.identity_injective (hid.symm.trans hid')
  · intro i th n c' hth hcall hp hnext hchanged
    obtain ⟨th', hth', -, hmove⟩ := hok.step_guar hp hnext
    obtain rfl : th = th' := Option.some.inj (hth.symm.trans hth')
    rw [hcall] at hmove
    rcases hmove with heq | ⟨-, -, lease, hlease, hnonce⟩
    · exact absurd heq hchanged
    · exact ⟨lease, hlease, hnonce⟩

end

/-! ### Two processes -/

def sampleContenders : Contenders Bool where
  identity := fun b => if b then ⟨2, "2:20", "boot"⟩ else ⟨1, "1:10", "boot"⟩
  identity_injective := by
    intro a b h
    revert a b
    decide
  nonceOwner := fun nonce =>
    if nonce = "one" then some false else if nonce = "two" then some true else none

/-- The process table shows both processes, and nobody has the lease. -/
def sampleLeaseWorld : HubWorld where
  publishTarget := some "a"
  fence := some "fence"
  processes :=
    { bootIdentity := some "boot"
      startIdentity := fun pid => if pid = 1 then some "1:10" else some "2:20"
      alive := fun _ => true }

/-- The call by which a process of the sample acquires the lease. -/
def sampleAcquire (b : Bool) : LeaseCall :=
  if b then .acquire { pid := 2, uuid := "two" } else .acquire { pid := 1, uuid := "one" }

theorem sampleAcquire_by (b : Bool) : (sampleAcquire b).By sampleContenders b := by
  cases b
  · refine ⟨by decide, by decide, ?_⟩
    rintro call h
    cases h
    decide
  · refine ⟨by decide, by decide, ?_⟩
    rintro call h
    cases h
    decide

/-- A process of the sample acquires the lease, and no other live process holds it. -/
theorem landingLease_exclusive_sample :
    ∃ h : LeaseHistory Bool,
      LeaseReach sampleContenders (LeaseUndisturbed sampleContenders) sampleLeaseWorld h ∧
      h.held false = true ∧
      ∀ j, h.held j = true → LiveIn sampleContenders h.pool.state j → false = j := by
  have hreach : LeaseReach sampleContenders (LeaseUndisturbed sampleContenders)
      sampleLeaseWorld _ :=
    leaseReach_of_exec (.start false (sampleAcquire false) ::
      List.replicate 6 (.step false) ++ [.finish false]) rfl (by
        refine Pool.permitted_cons (sampleAcquire_by false) rfl <| Pool.permitted_cons ?_ rfl <|
          Pool.permitted_cons ?_ rfl <| Pool.permitted_cons ?_ rfl <|
          Pool.permitted_cons ?_ rfl <| Pool.permitted_cons ?_ rfl <|
          Pool.permitted_cons ?_ rfl <| Pool.permitted_cons trivial rfl trivial
        all_goals
          intro k upd rest seen h
          cases h
          exact ⟨fun i _ => by cases i <;> exact ⟨rfl, rfl, rfl⟩, fun _ => rfl⟩)
  have hwf : NonceTells sampleContenders sampleLeaseWorld := fun lease h => nomatch h
  refine ⟨_, hreach, by decide, ?_⟩
  intro j hj hlive
  exact (landingLease_exclusive hwf hreach).1 false j (by decide) hj ⟨rfl, rfl, rfl⟩ hlive

/-- Both processes read the lease file before either of them writes it, and each reads its own
lease back: two live processes hold the lease. -/
theorem bothAcquire :
    ∃ h : LeaseHistory Bool,
      LeaseReach sampleContenders (fun _ _ _ _ => True) sampleLeaseWorld h ∧
      h.held false = true ∧ h.held true = true ∧
      LiveIn sampleContenders h.pool.state false ∧ LiveIn sampleContenders h.pool.state true := by
  have hreach : LeaseReach sampleContenders (fun _ _ _ _ => True) sampleLeaseWorld _ :=
    leaseReach_of_exec
      (.start false (sampleAcquire false) :: List.replicate 4 (.step false) ++
        .start true (sampleAcquire true) :: List.replicate 4 (.step true) ++
        [.step false, .step false, .finish false, .step true, .step true, .finish true]) rfl
      (Pool.permitted_of_forall (by
        intro a ha c
        simp only [List.cons_append, List.mem_cons, List.mem_append, List.mem_replicate,
          List.not_mem_nil, or_false] at ha
        rcases ha with rfl | (⟨-, rfl⟩ | rfl | ⟨-, rfl⟩) | rfl | rfl | rfl | rfl | rfl | rfl
        all_goals first | trivial | exact sampleAcquire_by _ | exact fun _ _ _ _ _ => trivial) _)
  exact ⟨_, hreach, by decide, by decide, ⟨rfl, rfl, rfl⟩, ⟨rfl, rfl, rfl⟩⟩

end ArchLoop
