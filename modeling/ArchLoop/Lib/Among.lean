import ArchLoop.Lib.Rely

/-!
# `ArchLoop.Lib.Among`: one program among others

`Reaches env p s q t` says that the program `p`, started in the state `s`, has come to `q` in the
state `t`, where `q` is what is left of it. Between any two of its steps, others may have moved the
state, each time as `env` says. So a claim about every interleaving with others is one about all
`q` and `t` that are reached.

`Sat.reaches` brings the rules of `Lib/Rely.lean` to such runs: what is left of the program still
keeps its rules. `Sat.nextState` is the conclusion about the next step.
-/

set_option autoImplicit false

namespace ArchLoop.Lib.Prog

universe u

variable {σ : Type u} {ε α : Type} {env : σ → σ → Prop}

/-- What is left of the program and the state, after steps of its own and of others.

- `own`: the program takes its next step.
- `other`: others move the state. -/
inductive Reaches (env : σ → σ → Prop) (p : Prog σ ε α) (s : σ) : Prog σ ε α → σ → Prop where
  | start : Reaches env p s p s
  | own {upd : σ → σ} {next : σ → Prog σ ε α} {t : σ} :
    Reaches env p s (act upd next) t → Reaches env p s (next t) (upd t)
  | other {q : Prog σ ε α} {t t' : σ} :
    Reaches env p s q t → env t t' → Reaches env p s q t'

/-- The state after the next step of the program. At its end the state stays. -/
def nextState : Prog σ ε α → σ → σ
  | act upd _, s => upd s
  | _, s => s

variable {p q : Prog σ ε α} {s t : σ}

theorem Reaches.stepsRun (h : Reaches env p s q t) (n : Nat) :
    Reaches env p s (q.stepsRun n t).1 (q.stepsRun n t).2 := by
  induction n generalizing q t with
  | zero =>
    rw [stepsRun_zero]
    exact h
  | succ n ih =>
    cases q with
    | ret a => exact h
    | raise e => exact h
    | act upd next => exact ih h.own

variable {rules : Rules σ} {Q : α → σ → Prop} {E : ε → σ → Prop}

theorem Sat.reaches (h : Sat rules Q E p s) (hinv : rules.inv s)
    (hrefl : ∀ s, rules.rely s s)
    (henv : ∀ seen t t', rules.rely seen t → rules.inv t → env t t' →
      rules.rely seen t' ∧ rules.inv t')
    (hallowed : ∀ s t t', rules.allowed s t t') (hreach : Reaches env p s q t) :
    ∃ seen, rules.rely seen t ∧ rules.inv t ∧ Sat rules Q E q seen := by
  induction hreach with
  | start => exact ⟨s, hrefl s, hinv, h⟩
  | own _ ih =>
    obtain ⟨seen, hrely, hinv', hsat⟩ := ih
    obtain ⟨-, hnext, hrest⟩ := hsat _ hrely hinv' (hallowed _ _ _)
    exact ⟨_, hrefl _, hnext, hrest⟩
  | other _ hmove ih =>
    obtain ⟨seen, hrely, hinv', hsat⟩ := ih
    obtain ⟨hrely', hnext⟩ := henv _ _ _ hrely hinv' hmove
    exact ⟨seen, hrely', hnext, hsat⟩

theorem Sat.nextState {guar : σ → σ → Prop} (h : Sat rules Q E p s) (hinv : rules.inv s)
    (hrefl : ∀ s, rules.rely s s)
    (henv : ∀ seen t t', rules.rely seen t → rules.inv t → env t t' →
      rules.rely seen t' ∧ rules.inv t')
    (hallowed : ∀ s t t', rules.allowed s t t')
    (hguar : ∀ seen t t', rules.guar seen t t' → guar t t') (hend : ∀ t, guar t t)
    (hreach : Reaches env p s q t) : guar t (q.nextState t) := by
  obtain ⟨seen, hrely, hinv', hsat⟩ := h.reaches hinv hrefl henv hallowed hreach
  cases q with
  | ret a => exact hend t
  | raise e => exact hend t
  | act upd next =>
    obtain ⟨hstep, -, -⟩ := hsat t hrely hinv' (hallowed _ _ _)
    exact hguar seen t (upd t) hstep

end ArchLoop.Lib.Prog
