import ArchLoop.Lib.Prog

/-!
# `ArchLoop.Lib.Unnoticed`: a change of the state that a program does not notice

Let `h` change a state, for instance by erasing a part of it. `Unnoticed h p` says that each
step of `p` reads the same from `h s` as from `s`, and that updating commutes with `h`. Then
the run from `h s` is the run from `s` with `h` applied to its end (`Unnoticed.run`), so two
runs from states that differ by `h` need only one proof.

The lemmas take a program apart along the code, as those of `Lib/Frame.lean` do.
-/

set_option autoImplicit false

namespace ArchLoop.Lib.Prog

universe u

variable {σ : Type u} {ε α β : Type} {h : σ → σ}

/-- No step of the program, from any state, notices `h`. -/
def Unnoticed (h : σ → σ) : Prog σ ε α → Prop
  | ret _ => True
  | raise _ => True
  | act upd next => ∀ s, upd (h s) = h (upd s) ∧ next (h s) = next s ∧ Unnoticed h (next s)

theorem unnoticed_reads {f : σ → α} (hf : ∀ s, f (h s) = f s) :
    Unnoticed h (reads f : Prog σ ε α) := by
  intro s
  refine ⟨rfl, ?_, trivial⟩
  dsimp only
  rw [hf s]

theorem unnoticed_modify {f : σ → σ} (hf : ∀ s, f (h s) = h (f s)) :
    Unnoticed h (modify f : Prog σ ε Unit) := fun s => ⟨hf s, rfl, trivial⟩

theorem unnoticed_bind {p : Prog σ ε α} {f : α → Prog σ ε β} (hp : Unnoticed h p)
    (hf : ∀ a, Unnoticed h (f a)) : Unnoticed h (p.bind f) := by
  induction p with
  | ret a => exact hf a
  | raise e => trivial
  | act upd next ih =>
    intro s
    obtain ⟨hupd, hnext, hrest⟩ := hp s
    refine ⟨hupd, ?_, ih s hrest⟩
    dsimp only
    rw [hnext]

theorem unnoticed_when {c : Bool} {p : Prog σ ε Unit} (hp : Unnoticed h p) :
    Unnoticed h (when c p) := by
  cases c with
  | true => exact hp
  | false => trivial

theorem Unnoticed.run {p : Prog σ ε α} (hp : Unnoticed h p) (s : σ) :
    p.run (h s) = ((p.run s).1, h (p.run s).2) := by
  induction p generalizing s with
  | ret a => rfl
  | raise e => rfl
  | act upd next ih =>
    obtain ⟨hupd, hnext, hrest⟩ := hp s
    rw [run_act, run_act, hupd, hnext]
    exact ih s hrest (upd s)

theorem Unnoticed.exec {p : Prog σ ε α} (hp : Unnoticed h p) (s : σ) :
    p.exec (h s) = h (p.exec s) := by
  unfold Prog.exec
  rw [hp.run s]

end ArchLoop.Lib.Prog
