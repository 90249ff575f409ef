import ArchLoop.Lib.Pool

/-!
# `ArchLoop.Lib.History`: programs with an auxiliary variable

`tracked note p` is the program `p` on a state with one more component. No step reads the
component, and each step writes it as `note` says, from the state before, the state after and
the old value. It is an auxiliary variable: it remembers what the steps of a run have seen, so
that a property of runs becomes one of states.

`tracked_bind`, `tracked_tryCatch` and `tracked_attempt` take a tracked program apart, and
`SatTracked` has the rules of `Lib/Rely.lean` for it.
-/

set_option autoImplicit false

namespace ArchLoop.Lib

namespace Prog

variable {σ γ ε α β : Type}

/-- The program, with `note` on each of its steps. -/
def tracked (note : σ → σ → γ → γ) : Prog σ ε α → Prog (σ × γ) ε α
  | ret a => ret a
  | raise e => raise e
  | act upd next => act (fun p => (upd p.1, note p.1 (upd p.1) p.2))
      fun p => (next p.1).tracked note

variable {note : σ → σ → γ → γ}

@[simp] theorem tracked_ret (a : α) :
    (ret a : Prog σ ε α).tracked note = ret a := rfl

@[simp] theorem tracked_raise (e : ε) :
    (raise e : Prog σ ε α).tracked note = raise e := rfl

theorem tracked_bind (p : Prog σ ε α) (f : α → Prog σ ε β) :
    (p.bind f).tracked note = (p.tracked note).bind fun a => (f a).tracked note := by
  induction p with
  | ret a => rfl
  | raise e => rfl
  | act upd next ih => simp only [act_bind, tracked, ih]

theorem tracked_tryCatch (p : Prog σ ε α) (handler : ε → Prog σ ε α) :
    (p.tryCatch handler).tracked note =
      (p.tracked note).tryCatch fun e => (handler e).tracked note := by
  induction p with
  | ret a => rfl
  | raise e => rfl
  | act upd next ih => simp only [act_tryCatch, tracked, ih]

theorem tracked_attempt (p : Prog σ ε α) :
    p.attempt.tracked note = (p.tracked note).attempt := by
  rw [attempt, tracked_tryCatch, tracked_bind]
  rfl

/-- A frame of the program is one of the tracked program, which writes the component as `note`
says. -/
theorem Always.tracked {P : σ → σ → Prop} {p : Prog σ ε α} (h : p.Always P) :
    (p.tracked note).Always fun s t => P s.1 t.1 ∧ t.2 = note s.1 t.1 s.2 := by
  induction p with
  | ret a => trivial
  | raise e => trivial
  | act upd next ih => exact fun s => ⟨⟨(h s.1).1, rfl⟩, ih s.1 (h s.1).2⟩

theorem run_tracked_const (p : Prog σ ε α) (s : σ) (g : γ) :
    (p.tracked fun _ _ g => g).run (s, g) = ((p.run s).1, ((p.run s).2, g)) := by
  induction p generalizing s with
  | ret a => rfl
  | raise e => rfl
  | act upd next ih => exact ih s (upd s)

theorem sat_tracked_bind {rules : Rules (σ × γ)} {Q : α → σ × γ → Prop} {R : β → σ × γ → Prop}
    {E : ε → σ × γ → Prop} {p : Prog σ ε α} {f : α → Prog σ ε β} {s : σ × γ}
    (hp : Sat rules Q E (p.tracked note) s)
    (hf : ∀ a t, Q a t → Sat rules R E ((f a).tracked note) t) :
    Sat rules R E ((p.bind f).tracked note) s := by
  rw [tracked_bind]
  exact sat_bind hp hf

/-- The tracked program keeps the rules and ends in `Q` or `E`. As a structure it does not
unfold along the program. -/
structure SatTracked (rules : Rules (σ × γ)) (note : σ → σ → γ → γ) (Q : α → σ × γ → Prop)
    (E : ε → σ × γ → Prop) (p : Prog σ ε α) (s : σ × γ) : Prop where
  sat : Sat rules Q E (p.tracked note) s

section SatTracked

variable {rules : Rules (σ × γ)} {Q : α → σ × γ → Prop} {R : β → σ × γ → Prop}
  {E : ε → σ × γ → Prop} {s : σ × γ}

theorem SatTracked.ret {a : α} (h : Q a s) :
    SatTracked rules note Q E (Prog.ret a : Prog σ ε α) s :=
  ⟨h⟩

theorem SatTracked.raise {e : ε} (h : E e s) :
    SatTracked rules note Q E (Prog.raise e : Prog σ ε α) s :=
  ⟨h⟩

theorem SatTracked.act {upd : σ → σ} {next : σ → Prog σ ε α}
    (h : ∀ t, rules.rely s t → rules.inv t →
      rules.allowed s t (upd t.1, note t.1 (upd t.1) t.2) →
      rules.guar s t (upd t.1, note t.1 (upd t.1) t.2) ∧
      rules.inv (upd t.1, note t.1 (upd t.1) t.2) ∧
      SatTracked rules note Q E (next t.1) (upd t.1, note t.1 (upd t.1) t.2)) :
    SatTracked rules note Q E (Prog.act upd next) s := by
  refine ⟨fun t hrely hinv hallowed => ?_⟩
  obtain ⟨hguar, hinv', hnext⟩ := h t hrely hinv hallowed
  exact ⟨hguar, hinv', hnext.sat⟩

theorem SatTracked.bind {p : Prog σ ε α} {f : α → Prog σ ε β}
    (hp : SatTracked rules note Q E p s)
    (hf : ∀ a t, Q a t → SatTracked rules note R E (f a) t) :
    SatTracked rules note R E (p.bind f) s :=
  ⟨sat_tracked_bind hp.sat fun a t h => (hf a t h).sat⟩

theorem SatTracked.when {c : Bool} {Q : Unit → σ × γ → Prop} {p : Prog σ ε Unit}
    (hp : c = true → SatTracked rules note Q E p s) (hs : c = false → Q () s) :
    SatTracked rules note Q E (Prog.when c p) s := by
  cases c with
  | true => exact hp rfl
  | false => exact SatTracked.ret (hs rfl)

end SatTracked

end Prog

end ArchLoop.Lib
