import ArchLoop.Lib.Prog

/-!
# `ArchLoop.Lib.Rely`: rely-guarantee rules for programs of atomic steps

`Sat rules Q E p s` says what a program does whose last step left the state `s`, while
others change the state between its steps.

- Before each step the others moved the state from `s` to some `t` with `rely s t`, and the
  invariant `inv t` holds.
- A step may assume `allowed s t t'`, where `t'` is the state after it. This is how a
  condition on the runs that a result is about reaches the proof of one program.
- Each step gives `guar s t t'` and keeps `inv`.
- At the end `Q` holds of the value, or `E` of the error, in the state of the last step.

A program alone is the case where `rely` is equality (`alone`). Then `Sat` is a Hoare triple
that also speaks of each intermediate state, which is what a crash leaves.

`sat_bind`, `sat_tryCatch`, `sat_mono` and `sat_finallyDo` take a program apart.
-/

set_option autoImplicit false

namespace ArchLoop.Lib

universe u

/-- What a program may assume about the others and what it owes them.

- `inv`: holds between any two steps.
- `rely`: how the others may move the state between two steps of the program.
- `allowed`: the runs considered. Its arguments are the state that the program's last step
  left, the state before its step and the state after it.
- `guar`: what each step of the program does, with the same three arguments. -/
structure Rules (σ : Type u) where
  inv : σ → Prop
  rely : σ → σ → Prop
  allowed : σ → σ → σ → Prop
  guar : σ → σ → σ → Prop

/-- The rules for a program that runs alone: nobody moves the state between its steps. -/
def Rules.alone {σ : Type u} (inv : σ → Prop) (guar : σ → σ → Prop) : Rules σ where
  inv := inv
  rely := Eq
  allowed := fun _ _ _ => True
  guar := fun _ => guar

namespace Prog

variable {σ : Type u} {ε α β : Type}

/-- The program, with `s` the state that its last step left, keeps the rules and ends in
`Q` or `E`. -/
def Sat (rules : Rules σ) (Q : α → σ → Prop) (E : ε → σ → Prop) : Prog σ ε α → σ → Prop
  | ret a, s => Q a s
  | raise e, s => E e s
  | act upd next, s => ∀ t, rules.rely s t → rules.inv t → rules.allowed s t (upd t) →
      rules.guar s t (upd t) ∧ rules.inv (upd t) ∧ Sat rules Q E (next t) (upd t)

variable {rules : Rules σ} {Q : α → σ → Prop} {E : ε → σ → Prop} {s : σ}

@[simp] theorem sat_ret (a : α) : Sat rules Q E (ret a) s ↔ Q a s := Iff.rfl

@[simp] theorem sat_raise (e : ε) :
    Sat rules Q E (raise e : Prog σ ε α) s ↔ E e s := Iff.rfl

theorem sat_reads_bind {τ : Type} {f : σ → τ} {g : τ → Prog σ ε α} :
    Sat rules Q E ((reads f).bind g) s ↔
      ∀ t, rules.rely s t → rules.inv t → rules.allowed s t t →
        rules.guar s t t ∧ rules.inv t ∧ Sat rules Q E (g (f t)) t := Iff.rfl

theorem sat_mono {Q' : α → σ → Prop} {E' : ε → σ → Prop} {p : Prog σ ε α}
    (h : Sat rules Q E p s) (hQ : ∀ a t, Q a t → Q' a t) (hE : ∀ e t, E e t → E' e t) :
    Sat rules Q' E' p s := by
  induction p generalizing s with
  | ret a => exact hQ a s h
  | raise e => exact hE e s h
  | act upd next ih =>
    intro t hrely hinv hallowed
    obtain ⟨hguar, hinv', hnext⟩ := h t hrely hinv hallowed
    exact ⟨hguar, hinv', ih t hnext⟩

/-- A sequence: the second part is proved from each state and value in which the first one
may end. -/
theorem sat_bind {Q' : β → σ → Prop} {p : Prog σ ε α} {f : α → Prog σ ε β}
    (hp : Sat rules Q E p s) (hf : ∀ a t, Q a t → Sat rules Q' E (f a) t) :
    Sat rules Q' E (p.bind f) s := by
  induction p generalizing s with
  | ret a => exact hf a s hp
  | raise e => exact hp
  | act upd next ih =>
    intro t hrely hinv hallowed
    obtain ⟨hguar, hinv', hnext⟩ := hp t hrely hinv hallowed
    exact ⟨hguar, hinv', ih t hnext⟩

theorem sat_when {c : Bool} {Q : Unit → σ → Prop} {p : Prog σ ε Unit}
    (hp : c = true → Sat rules Q E p s) (hs : c = false → Q () s) :
    Sat rules Q E (when c p) s := by
  cases c with
  | true => exact hp rfl
  | false => exact hs rfl

theorem sat_tryCatch {R : ε → σ → Prop} {p : Prog σ ε α} {handler : ε → Prog σ ε α}
    (hp : Sat rules Q R p s) (hh : ∀ e t, R e t → Sat rules Q E (handler e) t) :
    Sat rules Q E (p.tryCatch handler) s := by
  induction p generalizing s with
  | ret a => exact hp
  | raise e => exact hh e s hp
  | act upd next ih =>
    intro t hrely hinv hallowed
    obtain ⟨hguar, hinv', hnext⟩ := hp t hrely hinv hallowed
    exact ⟨hguar, hinv', ih t hnext⟩

theorem sat_mapError {ε' : Type} {f : ε → ε'} {E : ε' → σ → Prop} {p : Prog σ ε α}
    (h : Sat rules Q (fun e => E (f e)) p s) : Sat rules Q E (p.mapError f) s := by
  induction p generalizing s with
  | ret a => exact h
  | raise e => exact h
  | act upd next ih =>
    intro t hrely hinv hallowed
    obtain ⟨hguar, hinv', hnext⟩ := h t hrely hinv hallowed
    exact ⟨hguar, hinv', ih t hnext⟩

theorem sat_attempt {R : Except ε α → σ → Prop} {p : Prog σ ε α}
    (h : Sat rules (fun a => R (.ok a)) (fun e => R (.error e)) p s) :
    Sat rules R E p.attempt s := by
  refine sat_tryCatch (R := fun e => R (.error e)) ?_ fun _ _ he => he
  exact sat_bind h fun _ _ ha => ha

theorem sat_finallyDo_of {Q' : α → σ → Prop} {R : ε → σ → Prop} {p : Prog σ ε α}
    {cleanup : Prog σ ε Unit} (hp : Sat rules Q R p s)
    (hQ : ∀ a t, Q a t → Sat rules (fun _ => Q' a) E cleanup t)
    (hE : ∀ e t, R e t → Sat rules (fun _ => E e) E cleanup t) :
    Sat rules Q' E (p.finallyDo cleanup) s := by
  refine sat_bind (Q := Q) ?_ ?_
  · refine sat_tryCatch hp ?_
    intro e t he
    exact sat_bind (hE e t he) fun _ t' ht' => ht'
  · intro a t ha
    exact sat_bind (hQ a t ha) fun _ t' ht' => ht'

theorem sat_finallyDo {p : Prog σ ε α} {cleanup : Prog σ ε Unit}
    (hp : Sat rules Q E p s)
    (hQ : ∀ a t, Q a t → Sat rules (fun _ => Q a) E cleanup t)
    (hE : ∀ e t, E e t → Sat rules (fun _ => E e) E cleanup t) :
    Sat rules Q E (p.finallyDo cleanup) s :=
  sat_finallyDo_of hp hQ hE

/-! ### A program alone -/

variable {inv : σ → Prop} {guar : σ → σ → Prop}

theorem sat_alone_act {upd : σ → σ} {next : σ → Prog σ ε α} :
    Sat (.alone inv guar) Q E (act upd next) s ↔
      (inv s → guar s (upd s) ∧ inv (upd s) ∧
        Sat (.alone inv guar) Q E (next s) (upd s)) := by
  constructor
  · intro h hinv
    exact h s rfl hinv trivial
  · rintro h t rfl hinv -
    exact h hinv

/-- What a program proved alone does when it runs: the end satisfies the invariant and the
postcondition. -/
theorem Sat.run {p : Prog σ ε α} (h : Sat (.alone inv guar) Q E p s) (hinv : inv s) :
    inv (p.run s).2 ∧
      match (p.run s).1 with
      | .ok a => Q a (p.run s).2
      | .error e => E e (p.run s).2 := by
  induction p generalizing s with
  | ret a => exact ⟨hinv, h⟩
  | raise e => exact ⟨hinv, h⟩
  | act upd next ih =>
    obtain ⟨-, hinv', hnext⟩ := sat_alone_act.mp h hinv
    exact ih s hnext hinv'

theorem Sat.crashAfter {p : Prog σ ε α} (h : Sat (.alone inv guar) Q E p s) (hinv : inv s)
    (n : Nat) : inv (p.crashAfter n s) := by
  induction p generalizing s n with
  | ret a => simpa [Prog.crashAfter] using hinv
  | raise e => simpa [Prog.crashAfter] using hinv
  | act upd next ih =>
    cases n with
    | zero => simpa using hinv
    | succ n =>
      obtain ⟨-, hinv', hnext⟩ := sat_alone_act.mp h hinv
      exact ih s hnext hinv' n

end Prog

end ArchLoop.Lib
