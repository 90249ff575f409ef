import ArchLoop.Lib.Frame
import Mathlib.Logic.Relation
import Mathlib.Logic.Function.Basic

/-!
# `ArchLoop.Lib.Pool`: processes that interleave on one state

A `Pool` holds the shared state, at most one running call for each process, and the results
that calls have returned. An `Action` starts a call, runs one atomic step of it, crashes it
after any of its steps, lets it return, or moves the state from outside. A process may start
a call again after a crash, so retries need no case of their own. With one process (the
index `Unit`), the runs of a pool are the sequences of calls with crashes between them.

A `Discipline` says which actions the runs at hand take. `Step` and `Reach` are the steps and
the reachable pools under it. `reach_of_exec` turns a list of actions that `exec` can run
into a reachable pool.

A `Contract` gives an invariant, and for each process what it relies on and guarantees. The
main facts about a contract that `Holds`:

- `Holds.ok_reach`: each reachable pool keeps the invariant, and each running call still
  satisfies its own proof.
- `Ok.step_cases`: each atomic step of a reachable pool gives the guarantee of its call.
- `Holds.returns_post`: each returned result still satisfies its postcondition.
-/

set_option autoImplicit false

namespace ArchLoop.Lib

/-- A running call: what was called, what is left of it, and the state that its last step
left. -/
structure Thread (κ σ ε α : Type) where
  call : κ
  rest : Prog σ ε α
  seen : σ

/-- The processes `ι` on the shared state `σ`.

- `state`: the shared state.
- `threads`: the running call of each process.
- `returns`: the results of the calls that returned, the newest first. -/
structure Pool (ι κ σ ε α : Type) where
  state : σ
  threads : ι → Option (Thread κ σ ε α)
  returns : List (ι × κ × Except ε α)

/-- One action of a run.

- `start`: the idle process `i` starts the call `k`.
- `step`: the running call of `i` takes its next atomic step.
- `crash`: the running call of `i` is lost.
- `finish`: the call of `i` has come to its end and returns.
- `env`: something outside the processes moves the state to `s`. -/
inductive Action (ι κ σ : Type) where
  | start (i : ι) (k : κ)
  | step (i : ι)
  | crash (i : ι)
  | finish (i : ι)
  | env (s : σ)

variable {ι κ σ ε α : Type} [DecidableEq ι]

namespace Pool

/-- The pool in the state `s` in which no call runs and none has returned. -/
def idle (s : σ) : Pool ι κ σ ε α where
  state := s
  threads := fun _ => none
  returns := []

/-- The pool after one action, when the action can be taken. -/
def next (code : ι → κ → Prog σ ε α) (c : Pool ι κ σ ε α) :
    Action ι κ σ → Option (Pool ι κ σ ε α)
  | .start i k =>
    match c.threads i with
    | none => some { c with threads := Function.update c.threads i (some ⟨k, code i k, c.state⟩) }
    | some _ => none
  | .step i =>
    match c.threads i with
    | some ⟨k, .act upd rest, _⟩ =>
      some { c with
        state := upd c.state
        threads := Function.update c.threads i (some ⟨k, rest c.state, upd c.state⟩) }
    | _ => none
  | .crash i => some { c with threads := Function.update c.threads i none }
  | .finish i =>
    match c.threads i with
    | some ⟨k, .ret a, _⟩ =>
      some { c with
        threads := Function.update c.threads i none
        returns := (i, k, .ok a) :: c.returns }
    | some ⟨k, .raise e, _⟩ =>
      some { c with
        threads := Function.update c.threads i none
        returns := (i, k, .error e) :: c.returns }
    | _ => none
  | .env s => some { c with state := s }

/-- The pool after a list of actions, when each of them can be taken. -/
def exec (code : ι → κ → Prog σ ε α) : Pool ι κ σ ε α → List (Action ι κ σ) →
    Option (Pool ι κ σ ε α)
  | c, [] => some c
  | c, a :: as => (c.next code a).bind fun c' => exec code c' as

end Pool

/-- Which actions the runs at hand take.

- `start i k s`: the process `i` may start the call `k` in the state `s`.
- `env s t`: the outside may move the state from `s` to `t`.
- `allowed k s t t'`: a call `k` whose last step left `s` may take its step from `t` to
  `t'`. -/
structure Discipline (ι κ σ : Type) where
  start : ι → κ → σ → Prop
  env : σ → σ → Prop
  allowed : κ → σ → σ → σ → Prop

namespace Discipline

/-- The discipline allows the action in the pool. -/
def Permits (D : Discipline ι κ σ) (c : Pool ι κ σ ε α) : Action ι κ σ → Prop
  | .start i k => D.start i k c.state
  | .step i => ∀ k upd rest seen, c.threads i = some ⟨k, .act upd rest, seen⟩ →
      D.allowed k seen c.state (upd c.state)
  | .crash _ => True
  | .finish _ => True
  | .env s => D.env c.state s

end Discipline

namespace Pool

variable (D : Discipline ι κ σ) (code : ι → κ → Prog σ ε α)

/-- The pool `c'` follows `c` by one action that the discipline allows. -/
def Step (c c' : Pool ι κ σ ε α) : Prop :=
  ∃ a, D.Permits c a ∧ c.next code a = some c'

/-- The pools that runs under the discipline reach from `c`. -/
abbrev Reach : Pool ι κ σ ε α → Pool ι κ σ ε α → Prop :=
  Relation.ReflTransGen (Step D code)

/-- The discipline allows each action of the list where the list takes it. -/
def Permitted : Pool ι κ σ ε α → List (Action ι κ σ) → Prop
  | _, [] => True
  | c, a :: as => D.Permits c a ∧ ∀ c', c.next code a = some c' → Permitted c' as

variable {D code}

theorem permitted_of_forall {as : List (Action ι κ σ)}
    (h : ∀ a ∈ as, ∀ c : Pool ι κ σ ε α, D.Permits c a) (c : Pool ι κ σ ε α) :
    c.Permitted D code as := by
  induction as generalizing c with
  | nil => trivial
  | cons a as ih =>
    refine ⟨h a (by simp) c, fun c' _ => ih (fun b hb => h b (by simp [hb])) c'⟩

theorem permitted_cons {c c' : Pool ι κ σ ε α} {a : Action ι κ σ} {as : List (Action ι κ σ)}
    (hp : D.Permits c a) (hnext : c.next code a = some c') (h : c'.Permitted D code as) :
    c.Permitted D code (a :: as) := by
  refine ⟨hp, ?_⟩
  intro c₁ h₁
  obtain rfl : c' = c₁ := Option.some.inj (hnext.symm.trans h₁)
  exact h

theorem reach_of_exec {c c' : Pool ι κ σ ε α} (as : List (Action ι κ σ))
    (h : c.exec code as = some c') (hp : c.Permitted D code as) : Reach D code c c' := by
  induction as generalizing c with
  | nil =>
    obtain rfl : c = c' := by simpa [exec] using h
    exact .refl
  | cons a as ih =>
    obtain ⟨c₁, hnext, hexec⟩ := Option.bind_eq_some_iff.mp h
    exact .head ⟨a, hp.1, hnext⟩ (ih hexec (hp.2 c₁ hnext))

variable (D code) in
theorem reach_run {c : Pool ι κ σ ε α} {i : ι} {k : κ} (hidle : c.threads i = none)
    (hstart : D.start i k c.state)
    (hallowed : (code i k).Along (fun t t' => ∀ s, D.allowed k s t t') c.state) :
    Reach D code c {
      state := ((code i k).run c.state).2
      threads := c.threads
      returns := (i, k, ((code i k).run c.state).1) :: c.returns } := by
  -- what is left of the call, from any state that it has come to
  have hrest : ∀ (p : Prog σ ε α) (seen s : σ), p.Along (fun t t' => ∀ s, D.allowed k s t t') s →
      Reach D code
        { state := s, threads := Function.update c.threads i (some ⟨k, p, seen⟩),
          returns := c.returns }
        { state := (p.run s).2, threads := c.threads,
          returns := (i, k, (p.run s).1) :: c.returns } := by
    intro p
    induction p with
    | ret a =>
      intro seen s _
      refine .single ⟨.finish i, trivial, ?_⟩
      simp [next, Function.update_eq_self_iff, hidle]
    | raise e =>
      intro seen s _
      refine .single ⟨.finish i, trivial, ?_⟩
      simp [next, Function.update_eq_self_iff, hidle]
    | act upd rest ih =>
      intro seen s hp
      refine .head ⟨.step i, ?_, ?_⟩ (ih s (upd s) (upd s) hp.2)
      · intro k' upd' rest' seen' hth
        dsimp only at hth
        rw [Function.update_self] at hth
        cases hth
        exact hp.1 seen
      · simp [next]
  refine .head ⟨.start i k, hstart, ?_⟩ (hrest (code i k) c.state c.state hallowed)
  simp [next, hidle]

/-! What one action does, one lemma for each kind. -/

theorem next_start {c c' : Pool ι κ σ ε α} {i : ι} {k : κ}
    (h : c.next code (.start i k) = some c') :
    c' = { c with threads := Function.update c.threads i (some ⟨k, code i k, c.state⟩) } := by
  simp only [next] at h
  split at h
  · exact (Option.some.inj h).symm
  · cases h

theorem next_step {c c' : Pool ι κ σ ε α} {i : ι} (h : c.next code (.step i) = some c') :
    ∃ k upd rest seen, c.threads i = some ⟨k, .act upd rest, seen⟩ ∧
      c' = { c with
        state := upd c.state
        threads := Function.update c.threads i (some ⟨k, rest c.state, upd c.state⟩) } := by
  simp only [next] at h
  split at h
  · rename_i k upd rest seen hth
    exact ⟨k, upd, rest, seen, hth, (Option.some.inj h).symm⟩
  · cases h

theorem next_crash {c c' : Pool ι κ σ ε α} {i : ι} (h : c.next code (.crash i) = some c') :
    c' = { c with threads := Function.update c.threads i none } :=
  (Option.some.inj h).symm

theorem next_finish {c c' : Pool ι κ σ ε α} {i : ι} (h : c.next code (.finish i) = some c') :
    ∃ k rest seen r, c.threads i = some ⟨k, rest, seen⟩ ∧
      (∀ a, r = .ok a → rest = .ret a) ∧ (∀ e, r = .error e → rest = .raise e) ∧
      c' = { c with
        threads := Function.update c.threads i none
        returns := (i, k, r) :: c.returns } := by
  simp only [next] at h
  split at h
  · rename_i k a seen hth
    refine ⟨k, _, seen, .ok a, hth, ?_, fun e he => (nomatch he), (Option.some.inj h).symm⟩
    intro b hb
    rw [Except.ok.inj hb]
  · rename_i k e seen hth
    refine ⟨k, _, seen, .error e, hth, fun a ha => (nomatch ha), ?_, (Option.some.inj h).symm⟩
    intro f hf
    rw [Except.error.inj hf]
  · cases h

theorem next_env {c c' : Pool ι κ σ ε α} {s : σ} (h : c.next code (.env s) = some c') :
    c' = { c with state := s } :=
  (Option.some.inj h).symm

theorem next_step_seen {c c' : Pool ι κ σ ε α} {i : ι} (h : c.next code (.step i) = some c')
    {th : Thread κ σ ε α} (hth : c'.threads i = some th) : th.seen = c'.state := by
  obtain ⟨k, upd, rest, seen, -, rfl⟩ := next_step h
  dsimp only at hth
  rw [Function.update_self] at hth
  rw [← Option.some.inj hth]

end Pool

/-- What the processes of a pool promise.

- `inv`: an invariant of the shared state.
- `rely i`: how the state may move while `i` is not stepping.
- `guar i k`: what each step of `i` in the call `k` does, from the state that its last step
  left, the state before and the state after.
- `post i k`: what holds when `i` returns a result from the call `k`. -/
structure Contract (ι κ σ ε α : Type) where
  inv : σ → Prop
  rely : ι → σ → σ → Prop
  guar : ι → κ → σ → σ → σ → Prop
  post : ι → κ → Except ε α → σ → Prop

namespace Contract

/-- The rules that the call `k` of the process `i` is proved under. -/
def rules (C : Contract ι κ σ ε α) (D : Discipline ι κ σ) (i : ι) (k : κ) : Rules σ where
  inv := C.inv
  rely := C.rely i
  allowed := D.allowed k
  guar := C.guar i k

/-- The program `p`, as what is left of the call `k` of `i`, keeps the contract. -/
def Sat (C : Contract ι κ σ ε α) (D : Discipline ι κ σ) (i : ι) (k : κ)
    (p : Prog σ ε α) (s : σ) : Prop :=
  Prog.Sat (C.rules D i k) (fun a => C.post i k (.ok a)) (fun e => C.post i k (.error e)) p s

/-- The contract holds of the code.

- `rely_refl`, `rely_trans`: nothing and twice something are covered by the rely.
- `guar_rely`: a step of one process is what each other process relies on.
- `env_keeps`: so is a move from outside, and it keeps the invariant.
- `sat`: each call that may start keeps its rules. -/
structure Holds (C : Contract ι κ σ ε α) (D : Discipline ι κ σ)
    (code : ι → κ → Prog σ ε α) : Prop where
  rely_refl : ∀ i s, C.rely i s s
  rely_trans : ∀ i s t u, C.rely i s t → C.rely i t u → C.rely i s u
  guar_rely : ∀ i k s t t' j, j ≠ i → C.inv t → C.guar i k s t t' → C.rely j t t'
  env_keeps : ∀ s t, C.inv s → D.env s t → C.inv t ∧ ∀ j, C.rely j s t
  sat : ∀ i k s, C.inv s → D.start i k s → C.Sat D i k (code i k) s

/-- The state keeps the invariant, and each running call keeps its rules from the state that
its last step left, which the others have moved only as it relies on. -/
def Ok (C : Contract ι κ σ ε α) (D : Discipline ι κ σ) (c : Pool ι κ σ ε α) : Prop :=
  C.inv c.state ∧ ∀ i th, c.threads i = some th →
    C.Sat D i th.call th.rest th.seen ∧ C.rely i th.seen c.state

variable {C : Contract ι κ σ ε α} {D : Discipline ι κ σ} {code : ι → κ → Prog σ ε α}

omit [DecidableEq ι] in
theorem ok_idle {s : σ} (hs : C.inv s) : C.Ok D (Pool.idle s) :=
  ⟨hs, fun _ _ h => nomatch h⟩

omit [DecidableEq ι] in
private theorem Ok.act {c : Pool ι κ σ ε α} (hc : C.Ok D c) {i : ι} {k : κ} {upd : σ → σ}
    {rest : σ → Prog σ ε α} {seen : σ} (hth : c.threads i = some ⟨k, .act upd rest, seen⟩)
    (hp : D.Permits c (.step i)) :
    C.guar i k seen c.state (upd c.state) ∧ C.inv (upd c.state) ∧
      C.Sat D i k (rest c.state) (upd c.state) := by
  obtain ⟨hsat, hrely⟩ := hc.2 i _ hth
  exact hsat c.state hrely hc.1 (hp k upd rest seen hth)

private theorem threads_update {c : Pool ι κ σ ε α} {i : ι} {s : σ}
    {new : Option (Thread κ σ ε α)}
    (hnew : ∀ th, new = some th → C.Sat D i th.call th.rest th.seen ∧ C.rely i th.seen s)
    (hold : ∀ j th, j ≠ i → c.threads j = some th →
      C.Sat D j th.call th.rest th.seen ∧ C.rely j th.seen s) :
    ∀ j th, Function.update c.threads i new j = some th →
      C.Sat D j th.call th.rest th.seen ∧ C.rely j th.seen s := by
  intro j th h
  by_cases hj : j = i
  · subst hj
    rw [Function.update_self] at h
    exact hnew th h
  · rw [Function.update_of_ne hj] at h
    exact hold j th hj h

/-- Step lemma: each permitted action keeps the pool fine. -/
theorem Holds.ok_next (H : C.Holds D code) {c c' : Pool ι κ σ ε α} {a : Action ι κ σ}
    (hc : C.Ok D c) (hp : D.Permits c a) (h : c.next code a = some c') : C.Ok D c' := by
  cases a with
  | start i k =>
    obtain rfl := Pool.next_start h
    refine ⟨hc.1, threads_update ?_ fun j th _ hth => hc.2 j th hth⟩
    rintro th hth
    obtain rfl := Option.some.inj hth
    exact ⟨H.sat i k c.state hc.1 hp, H.rely_refl i c.state⟩
  | step i =>
    obtain ⟨k, upd, rest, seen, hth, rfl⟩ := Pool.next_step h
    obtain ⟨hguar, hinv, hsat⟩ := hc.act hth hp
    refine ⟨hinv, threads_update ?_ ?_⟩
    · rintro th hth'
      obtain rfl := Option.some.inj hth'
      exact ⟨hsat, H.rely_refl i _⟩
    · intro j th hj hth'
      obtain ⟨hsat', hrely⟩ := hc.2 j th hth'
      exact ⟨hsat', H.rely_trans j _ _ _ hrely (H.guar_rely i k _ _ _ j hj hc.1 hguar)⟩
  | crash i =>
    obtain rfl := Pool.next_crash h
    exact ⟨hc.1, threads_update (fun th hth => nomatch hth) fun j th _ hth => hc.2 j th hth⟩
  | finish i =>
    obtain ⟨k, rest, seen, r, -, -, -, rfl⟩ := Pool.next_finish h
    exact ⟨hc.1, threads_update (fun th hth => nomatch hth) fun j th _ hth => hc.2 j th hth⟩
  | env s =>
    obtain rfl := Pool.next_env h
    obtain ⟨hinv, hrely⟩ := H.env_keeps c.state s hc.1 hp
    refine ⟨hinv, ?_⟩
    intro j th hth
    obtain ⟨hsat, hseen⟩ := hc.2 j th hth
    exact ⟨hsat, H.rely_trans j _ _ _ hseen (hrely j)⟩

/-- Run lemma: each reachable pool is fine. -/
theorem Holds.ok_reach (H : C.Holds D code) {c c' : Pool ι κ σ ε α} (hc : C.Ok D c)
    (h : Pool.Reach D code c c') : C.Ok D c' := by
  induction h with
  | refl => exact hc
  | tail _ hstep ih =>
    obtain ⟨a, hp, hnext⟩ := hstep
    exact H.ok_next ih hp hnext

/-- Runs under a discipline are runs under another one that admits what the contract says of
their moves. -/
theorem Holds.reach_of (H : C.Holds D code) (D' : Discipline ι κ σ)
    (hstart : ∀ i k s, D.start i k s → D'.start i k s)
    (henv : ∀ s t, C.inv s → D.env s t → D'.env s t)
    (hallowed : ∀ i k s t t', C.inv t → D.allowed k s t t' → C.guar i k s t t' →
      D'.allowed k s t t')
    {c c' : Pool ι κ σ ε α} (hc : C.Ok D c) (h : Pool.Reach D code c c') :
    Pool.Reach D' code c c' := by
  induction h with
  | refl => exact .refl
  | @tail c₁ c₂ hreach hstep ih =>
    have hok : C.Ok D c₁ := H.ok_reach hc hreach
    obtain ⟨a, hp, hnext⟩ := hstep
    refine ih.tail ⟨a, ?_, hnext⟩
    cases a with
    | start i k => exact hstart i k c₁.state hp
    | step i =>
      intro k upd rest seen hth
      exact hallowed i k seen c₁.state _ hok.1 (hp k upd rest seen hth) (hok.act hth hp).1
    | crash i => trivial
    | finish i => trivial
    | env s => exact henv c₁.state s hok.1 hp

theorem Ok.step_guar {c c' : Pool ι κ σ ε α} (hc : C.Ok D c) {i : ι}
    (hp : D.Permits c (.step i)) (h : c.next code (.step i) = some c') :
    ∃ th, c.threads i = some th ∧ C.guar i th.call th.seen c.state c'.state := by
  obtain ⟨k, upd, rest, seen, hth, rfl⟩ := Pool.next_step h
  exact ⟨_, hth, (hc.act hth hp).1⟩

theorem Ok.finish_post {c c' : Pool ι κ σ ε α} (hc : C.Ok D c) {i : ι}
    (h : c.next code (.finish i) = some c') :
    ∃ k r seen, c'.returns = (i, k, r) :: c.returns ∧ c'.state = c.state ∧
      C.post i k r seen ∧ C.rely i seen c.state := by
  obtain ⟨k, rest, seen, r, hth, hok, herror, rfl⟩ := Pool.next_finish h
  obtain ⟨hsat, hrely⟩ := hc.2 i _ hth
  refine ⟨k, r, seen, rfl, rfl, ?_, hrely⟩
  cases r with
  | ok a =>
    obtain rfl := hok a rfl
    exact hsat
  | error e =>
    obtain rfl := herror e rfl
    exact hsat

/-- How the state moves in one action: not at all, by a step of a running call that gives
its guarantee, or from outside. -/
theorem Ok.action_cases {c c' : Pool ι κ σ ε α} (hc : C.Ok D c) {a : Action ι κ σ}
    (hp : D.Permits c a) (hnext : c.next code a = some c') :
    c'.state = c.state ∨
    (∃ i th, a = .step i ∧ c.threads i = some th ∧
      C.guar i th.call th.seen c.state c'.state) ∨
    D.env c.state c'.state := by
  cases a with
  | start i k =>
    obtain rfl := Pool.next_start hnext
    exact Or.inl rfl
  | step i =>
    obtain ⟨th, hth, hguar⟩ := hc.step_guar hp hnext
    exact Or.inr (Or.inl ⟨i, th, rfl, hth, hguar⟩)
  | crash i =>
    obtain rfl := Pool.next_crash hnext
    exact Or.inl rfl
  | finish i =>
    obtain ⟨k, r, seen, -, hstate, -, -⟩ := hc.finish_post hnext
    exact Or.inl hstate
  | env s =>
    obtain rfl := Pool.next_env hnext
    exact Or.inr (Or.inr hp)

theorem Ok.step_cases {c c' : Pool ι κ σ ε α} (hc : C.Ok D c)
    (h : Pool.Step D code c c') :
    c'.state = c.state ∨
    (∃ i th, c.threads i = some th ∧ C.guar i th.call th.seen c.state c'.state) ∨
    D.env c.state c'.state := by
  obtain ⟨a, hp, hnext⟩ := h
  rcases hc.action_cases hp hnext with heq | ⟨i, th, -, hth, hguar⟩ | henv
  · exact Or.inl heq
  · exact Or.inr (Or.inl ⟨i, th, hth, hguar⟩)
  · exact Or.inr (Or.inr henv)

/-- What one action adds to the returned results: nothing, or one result whose
postcondition held at the last step of its call. -/
theorem Ok.returns_cases {c c' : Pool ι κ σ ε α} (hc : C.Ok D c)
    {a : Action ι κ σ} (h : c.next code a = some c') :
    c'.returns = c.returns ∨
    ∃ i k r seen, c'.returns = (i, k, r) :: c.returns ∧ c'.state = c.state ∧
      C.post i k r seen ∧ C.rely i seen c.state := by
  cases a with
  | start i k =>
    obtain rfl := Pool.next_start h
    exact Or.inl rfl
  | step i =>
    obtain ⟨k, upd, rest, seen, -, rfl⟩ := Pool.next_step h
    exact Or.inl rfl
  | crash i =>
    obtain rfl := Pool.next_crash h
    exact Or.inl rfl
  | finish i =>
    obtain ⟨k, r, seen, hr⟩ := hc.finish_post h
    exact Or.inr ⟨i, k, r, seen, hr⟩
  | env s =>
    obtain rfl := Pool.next_env h
    exact Or.inl rfl

/-- Run lemma for results: what the postcondition gives when a call returns, and what no move
of the state can break, holds of each returned result for ever. -/
theorem Holds.returns_keep (H : C.Holds D code) {K : ι → κ → Except ε α → σ → Prop}
    (hpost : ∀ i k r s t, C.post i k r s → C.rely i s t → K i k r t)
    (henv : ∀ i k r s t, C.inv s → K i k r s → D.env s t → K i k r t)
    (hguar : ∀ i k r s t t' j l, C.inv t → K i k r t → C.guar j l s t t' → K i k r t')
    {c c' : Pool ι κ σ ε α} (hc : C.Ok D c)
    (hreturns : ∀ i k r, (i, k, r) ∈ c.returns → K i k r c.state)
    (h : Pool.Reach D code c c') :
    ∀ i k r, (i, k, r) ∈ c'.returns → K i k r c'.state := by
  induction h with
  | refl => exact hreturns
  | @tail c₁ c₂ hreach hstep ih =>
    have hok : C.Ok D c₁ := H.ok_reach hc hreach
    intro i k r hmem
    have hmove : K i k r c₁.state → K i k r c₂.state := by
      intro hp
      rcases hok.step_cases hstep with heq | ⟨j, th, -, hg⟩ | he
      · rw [heq]; exact hp
      · exact hguar i k r th.seen c₁.state c₂.state j th.call hok.1 hp hg
      · exact henv i k r _ _ hok.1 hp he
    obtain ⟨a, -, hnext⟩ := hstep
    rcases hok.returns_cases hnext with heq | ⟨j, l, r', seen, heq, hst, hp, hr⟩
    · rw [heq] at hmem
      exact hmove (ih i k r hmem)
    · rw [heq] at hmem
      rcases List.mem_cons.mp hmem with hnew | hold
      · cases hnew
        rw [hst]
        exact hpost i k r _ _ hp hr
      · exact hmove (ih i k r hold)

theorem Holds.returns_post (H : C.Holds D code)
    (hrely : ∀ i k r s t, C.post i k r s → C.rely i s t → C.post i k r t)
    (hguar : ∀ i k r s t t' j l, C.inv t → C.post i k r t → C.guar j l s t t' →
      C.post i k r t')
    {c c' : Pool ι κ σ ε α} (hc : C.Ok D c)
    (hpost : ∀ i k r, (i, k, r) ∈ c.returns → C.post i k r c.state)
    (h : Pool.Reach D code c c') :
    ∀ i k r, (i, k, r) ∈ c'.returns → C.post i k r c'.state :=
  H.returns_keep hrely
    (fun i k r s t hs hp he => hrely i k r s t hp ((H.env_keeps s t hs he).2 i))
    hguar hc hpost h

end Contract

end ArchLoop.Lib
