import Mathlib.Tactic.Common

/-!
# `ArchLoop.Lib.Prog`: programs made of atomic steps

A program over a shared state is a tree of atomic steps. Each step updates the state once,
and the rest of the program may depend on the state that the step found. A program ends
with a value, or with an error as a JavaScript function ends with a thrown one.

The tree keeps every point where a process can stop, so one definition of a function gives
three readings of it:

- `run` executes the program alone, from start to end.
- `stepsRun n` executes its first `n` steps and stops, as a crash does.
- `Lib/Pool.lean` interleaves the steps of many programs.

`run_bind`, `run_tryCatch` and the `simp` lemmas beside the definitions compute `run` along
the code.
-/

set_option autoImplicit false

namespace ArchLoop.Lib

universe u

/-- A program over the state `σ` that returns an `α` or raises an `ε`.

- `ret`: the program has returned.
- `raise`: the program has thrown.
- `act`: one atomic step. It replaces the state `s` by `upd s` and goes on with `next s`,
  so the rest of the program sees what the step found. -/
inductive Prog (σ : Type u) (ε α : Type) : Type u where
  | ret (a : α)
  | raise (e : ε)
  | act (upd : σ → σ) (next : σ → Prog σ ε α)

namespace Prog

variable {σ : Type u} {ε α β γ : Type}

/-- `p` and then `f` on the value of `p`. An error of `p` skips `f`. -/
def bind : Prog σ ε α → (α → Prog σ ε β) → Prog σ ε β
  | ret a, f => f a
  | raise e, _ => raise e
  | act upd next, f => act upd fun s => (next s).bind f

/-- `p`, and `handler` on the error of `p` if it throws one. -/
def tryCatch : Prog σ ε α → (ε → Prog σ ε α) → Prog σ ε α
  | ret a, _ => ret a
  | raise e, handler => handler e
  | act upd next, handler => act upd fun s => (next s).tryCatch handler

instance : Monad (Prog σ ε) where
  pure := ret
  bind := bind

instance : MonadExceptOf ε (Prog σ ε) where
  throw := raise
  tryCatch := tryCatch

/-- One atomic read of the state. -/
def reads (f : σ → α) : Prog σ ε α :=
  act id fun s => ret (f s)

/-- One atomic update of the state. -/
def modify (f : σ → σ) : Prog σ ε Unit :=
  act f fun _ => ret ()

/-- `p` and then `cleanup`, also when `p` throws: the `try … finally` of the source. -/
def finallyDo (p : Prog σ ε α) (cleanup : Prog σ ε Unit) : Prog σ ε α :=
  (p.tryCatch fun e => cleanup.bind fun _ => raise e).bind fun a =>
    cleanup.bind fun _ => ret a

/-- `p`, if the condition holds. -/
def when (c : Bool) (p : Prog σ ε Unit) : Prog σ ε Unit :=
  if c then p else ret ()

/-- `p`, with its error as a value. -/
def attempt (p : Prog σ ε α) : Prog σ ε (Except ε α) :=
  (p.bind fun a => ret (.ok a)).tryCatch fun e => ret (.error e)

/-- `p`, with its error translated. -/
def mapError {ε' : Type} (f : ε → ε') : Prog σ ε α → Prog σ ε' α
  | ret a => ret a
  | raise e => raise (f e)
  | act upd next => act upd fun s => (next s).mapError f

@[simp] theorem pure_eq (a : α) : (pure a : Prog σ ε α) = ret a := rfl

@[simp] theorem throw_eq (e : ε) : (throw e : Prog σ ε α) = raise e := rfl

@[simp] theorem bind_eq (p : Prog σ ε α) (f : α → Prog σ ε β) : (p >>= f) = p.bind f := rfl

@[simp] theorem tryCatch_eq (p : Prog σ ε α) (handler : ε → Prog σ ε α) :
    (tryCatchThe ε p handler) = p.tryCatch handler := rfl

@[simp] theorem when_true (p : Prog σ ε Unit) : when true p = p := rfl

@[simp] theorem when_false (p : Prog σ ε Unit) : when false p = ret () := rfl

@[simp] theorem ret_bind (a : α) (f : α → Prog σ ε β) : (ret a).bind f = f a := rfl

@[simp] theorem raise_bind (e : ε) (f : α → Prog σ ε β) :
    (raise e : Prog σ ε α).bind f = raise e := rfl

@[simp] theorem act_bind (upd : σ → σ) (next : σ → Prog σ ε α) (f : α → Prog σ ε β) :
    (act upd next).bind f = act upd fun s => (next s).bind f := rfl

@[simp] theorem ret_tryCatch (a : α) (handler : ε → Prog σ ε α) :
    (ret a).tryCatch handler = ret a := rfl

@[simp] theorem raise_tryCatch (e : ε) (handler : ε → Prog σ ε α) :
    (raise e : Prog σ ε α).tryCatch handler = handler e := rfl

@[simp] theorem act_tryCatch (upd : σ → σ) (next : σ → Prog σ ε α)
    (handler : ε → Prog σ ε α) :
    (act upd next).tryCatch handler = act upd fun s => (next s).tryCatch handler := rfl

theorem bind_assoc (p : Prog σ ε α) (f : α → Prog σ ε β) (g : β → Prog σ ε γ) :
    (p.bind f).bind g = p.bind fun a => (f a).bind g := by
  induction p with
  | ret a => rfl
  | raise e => rfl
  | act upd next ih => simp only [act_bind, ih]

theorem bind_ret (p : Prog σ ε α) : p.bind ret = p := by
  induction p with
  | ret a => rfl
  | raise e => rfl
  | act upd next ih => simp only [act_bind, ih]

/-! ### Running alone -/

/-- The result of the program run alone from `s`, and the state it leaves. -/
def run : Prog σ ε α → σ → Except ε α × σ
  | ret a, s => (.ok a, s)
  | raise e, s => (.error e, s)
  | act upd next, s => (next s).run (upd s)

/-- The state that the program leaves when it runs alone from `s`. -/
def exec (p : Prog σ ε α) (s : σ) : σ :=
  (p.run s).2

@[simp] theorem run_ret (a : α) (s : σ) : (ret a : Prog σ ε α).run s = (.ok a, s) := rfl

@[simp] theorem run_raise (e : ε) (s : σ) : (raise e : Prog σ ε α).run s = (.error e, s) := rfl

@[simp] theorem run_act (upd : σ → σ) (next : σ → Prog σ ε α) (s : σ) :
    (act upd next).run s = (next s).run (upd s) := rfl

@[simp] theorem run_reads (f : σ → α) (s : σ) :
    (reads f : Prog σ ε α).run s = (.ok (f s), s) := rfl

@[simp] theorem run_modify (f : σ → σ) (s : σ) :
    (modify f : Prog σ ε Unit).run s = (.ok (), f s) := rfl

theorem run_bind (p : Prog σ ε α) (f : α → Prog σ ε β) (s : σ) :
    (p.bind f).run s
      = match p.run s with
        | (.ok a, t) => (f a).run t
        | (.error e, t) => (.error e, t) := by
  induction p generalizing s with
  | ret a => rfl
  | raise e => rfl
  | act upd next ih => simp only [act_bind, run_act, ih]

theorem run_bind_ok {p : Prog σ ε α} {s t : σ} {a : α} (h : p.run s = (.ok a, t))
    (f : α → Prog σ ε β) : (p.bind f).run s = (f a).run t := by
  rw [run_bind, h]

theorem run_bind_error {p : Prog σ ε α} {s t : σ} {e : ε} (h : p.run s = (.error e, t))
    (f : α → Prog σ ε β) : (p.bind f).run s = (.error e, t) := by
  rw [run_bind, h]

theorem run_bind_eq_ok {p : Prog σ ε α} {f : α → Prog σ ε β} {s u : σ} {b : β} :
    (p.bind f).run s = (.ok b, u) ↔
      ∃ a t, p.run s = (.ok a, t) ∧ (f a).run t = (.ok b, u) := by
  rw [run_bind]
  cases hrun : p.run s with
  | mk result t =>
    cases result with
    | ok a => simp
    | error e => simp

theorem run_tryCatch (p : Prog σ ε α) (handler : ε → Prog σ ε α) (s : σ) :
    (p.tryCatch handler).run s
      = match p.run s with
        | (.ok a, t) => (.ok a, t)
        | (.error e, t) => (handler e).run t := by
  induction p generalizing s with
  | ret a => rfl
  | raise e => rfl
  | act upd next ih => simp only [act_tryCatch, run_act, ih]

theorem run_attempt (p : Prog σ ε α) (s : σ) :
    p.attempt.run s = (.ok (p.run s).1, (p.run s).2) := by
  rw [attempt, run_tryCatch, run_bind]
  cases hrun : p.run s with
  | mk result t =>
    cases result with
    | ok a => rfl
    | error e => rfl

theorem run_mapError {ε' : Type} (f : ε → ε') (p : Prog σ ε α) (s : σ) :
    (p.mapError f).run s = ((p.run s).1.mapError f, (p.run s).2) := by
  induction p generalizing s with
  | ret a => rfl
  | raise e => rfl
  | act upd next ih => simp only [mapError, run_act, ih]

/-! ### Stopping after some steps -/

/-- What is left of the program after `n` of its steps from `s`, and the state then. A
program that ends earlier stays at its end. -/
def stepsRun : Nat → Prog σ ε α → σ → Prog σ ε α × σ
  | n + 1, act upd next, s => stepsRun n (next s) (upd s)
  | _, p, s => (p, s)

/-- The state in which a crash after `n` steps leaves the program. -/
def crashAfter (n : Nat) (p : Prog σ ε α) (s : σ) : σ :=
  (stepsRun n p s).2

@[simp] theorem stepsRun_zero (p : Prog σ ε α) (s : σ) : stepsRun 0 p s = (p, s) := by
  cases p <;> rfl

@[simp] theorem stepsRun_ret (n : Nat) (a : α) (s : σ) :
    stepsRun n (ret a : Prog σ ε α) s = (ret a, s) := by
  cases n <;> rfl

@[simp] theorem stepsRun_raise (n : Nat) (e : ε) (s : σ) :
    stepsRun n (raise e : Prog σ ε α) s = (raise e, s) := by
  cases n <;> rfl

@[simp] theorem stepsRun_act (n : Nat) (upd : σ → σ) (next : σ → Prog σ ε α) (s : σ) :
    stepsRun (n + 1) (act upd next) s = stepsRun n (next s) (upd s) := rfl

@[simp] theorem crashAfter_zero (p : Prog σ ε α) (s : σ) : crashAfter 0 p s = s := by
  simp [crashAfter]

/-- A crash after some number of steps leaves `t`. -/
def Visits (p : Prog σ ε α) (s t : σ) : Prop :=
  ∃ n, p.crashAfter n s = t

theorem visits_end (p : Prog σ ε α) (s : σ) : p.Visits s (p.run s).2 := by
  induction p generalizing s with
  | ret a => exact ⟨0, by simp⟩
  | raise e => exact ⟨0, by simp⟩
  | act upd next ih =>
    obtain ⟨n, hn⟩ := ih s (upd s)
    exact ⟨n + 1, hn⟩

theorem Visits.bind {p : Prog σ ε α} {s t : σ} (h : p.Visits s t) (f : α → Prog σ ε β) :
    (p.bind f).Visits s t := by
  induction p generalizing s with
  | ret a =>
    obtain ⟨n, rfl⟩ := h
    exact ⟨0, by simp [crashAfter]⟩
  | raise e =>
    obtain ⟨n, rfl⟩ := h
    exact ⟨0, by simp [crashAfter]⟩
  | act upd next ih =>
    obtain ⟨n, hn⟩ := h
    cases n with
    | zero => exact ⟨0, by simpa using hn⟩
    | succ n =>
      obtain ⟨m, hm⟩ := ih s ⟨n, hn⟩
      exact ⟨m + 1, hm⟩

theorem Visits.tryCatch {p : Prog σ ε α} {s t : σ} (h : p.Visits s t)
    (handler : ε → Prog σ ε α) : (p.tryCatch handler).Visits s t := by
  induction p generalizing s with
  | ret a => exact h
  | raise e =>
    obtain ⟨n, rfl⟩ := h
    exact ⟨0, by simp [crashAfter]⟩
  | act upd next ih =>
    obtain ⟨n, hn⟩ := h
    cases n with
    | zero => exact ⟨0, by simpa using hn⟩
    | succ n =>
      obtain ⟨m, hm⟩ := ih s ⟨n, hn⟩
      exact ⟨m + 1, hm⟩

theorem Visits.mapError {ε' : Type} {p : Prog σ ε α} {s t : σ} (h : p.Visits s t)
    (f : ε → ε') : (p.mapError f).Visits s t := by
  induction p generalizing s with
  | ret a =>
    obtain ⟨n, rfl⟩ := h
    exact ⟨0, by simp [crashAfter]⟩
  | raise e =>
    obtain ⟨n, rfl⟩ := h
    exact ⟨0, by simp [crashAfter]⟩
  | act upd next ih =>
    obtain ⟨n, hn⟩ := h
    cases n with
    | zero => exact ⟨0, by simpa using hn⟩
    | succ n =>
      obtain ⟨m, hm⟩ := ih s ⟨n, hn⟩
      exact ⟨m + 1, hm⟩

end Prog

end ArchLoop.Lib
