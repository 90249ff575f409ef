import ArchLoop.Lib.Among
import ArchLoop.Lib.Frame

/-!
# `ArchLoop.Lib.Stable`: a program under a condition that others keep

Others move the state between the steps of a program, but only in ways that keep a condition `K`
(`Stable rely K`).

- `Holds rely K p Q E`: started where `K` holds, `p` ends where it holds, with a value in `Q`, or
  throws an error in `E`.
- `Meets rely K p Q E`: the same without `K` at the end. A program that no longer needs `K` once
  some part is done is `Holds` up to there, and `Ends` after it (`meets_of_ends`).

`Meets.reaches` is the conclusion about a run among others: a value that is reached is in `Q`.
-/

set_option autoImplicit false

namespace ArchLoop.Lib

universe u

variable {σ : Type u}

/-- What others do keeps the condition. -/
def Stable (rely : σ → σ → Prop) (K : σ → Prop) : Prop :=
  ∀ s t, rely s t → K s → K t

/-- Others move the state by `rely`. The program may do anything. -/
def Rules.among (rely : σ → σ → Prop) : Rules σ where
  inv _ := True
  rely := rely
  allowed _ _ _ := True
  guar _ _ _ := True

namespace Prog

variable {ε α β : Type} {rely : σ → σ → Prop} {K : σ → Prop} {p : Prog σ ε α}
  {Q : α → Prop} {E : ε → Prop}

/-- From `K`, the program ends in `K` with a value in `Q`, or with an error in `E`. -/
structure Holds (rely : σ → σ → Prop) (K : σ → Prop) (p : Prog σ ε α) (Q : α → Prop)
    (E : ε → Prop) : Prop where
  sat : ∀ s, K s → p.Sat (.among rely) (fun a t => K t ∧ Q a) (fun e _ => E e) s

/-- From `K`, the program ends with a value in `Q`, or with an error in `E`. -/
structure Meets (rely : σ → σ → Prop) (K : σ → Prop) (p : Prog σ ε α) (Q : α → Prop)
    (E : ε → Prop) : Prop where
  sat : ∀ s, K s → p.Sat (.among rely) (fun a _ => Q a) (fun e _ => E e) s

theorem holds_ret {a : α} (h : Q a) : Holds rely K (ret a : Prog σ ε α) Q E where
  sat _ hs := ⟨hs, h⟩

theorem holds_bind {R : β → Prop} {p : Prog σ ε β} {f : β → Prog σ ε α}
    (hp : Holds rely K p R E) (hf : ∀ b, R b → Holds rely K (f b) Q E) :
    Holds rely K (p.bind f) Q E where
  sat s hs := sat_bind (hp.sat s hs) fun b t hb => (hf b hb.2).sat t hb.1

theorem holds_act {upd : σ → σ} {next : σ → Prog σ ε α} (hstable : Stable rely K)
    (hupd : ∀ t, K t → K (upd t)) (hnext : ∀ t, K t → Holds rely K (next t) Q E) :
    Holds rely K (act upd next) Q E where
  sat s hs t hrely _ _ := by
    have ht := hstable s t hrely hs
    exact ⟨trivial, trivial, (hnext t ht).sat (upd t) (hupd t ht)⟩

theorem holds_reads {f : σ → α} (hstable : Stable rely K) (h : ∀ t, K t → Q (f t)) :
    Holds rely K (reads f : Prog σ ε α) Q E :=
  holds_act hstable (fun _ ht => ht) fun t ht => holds_ret (h t ht)

theorem holds_modify {f : σ → σ} (hstable : Stable rely K) (h : ∀ t, K t → K (f t)) :
    Holds rely K (modify f : Prog σ ε Unit) (fun _ => True) E :=
  holds_act hstable h fun _ _ => holds_ret trivial

theorem holds_of_always {P : σ → σ → Prop} (hstable : Stable rely K) (h : p.Always P)
    (hkeeps : ∀ s t, P s t → K s → K t) (hends : p.Ends Q E) : Holds rely K p Q E where
  sat s hs := by
    induction p generalizing s with
    | ret a => exact ⟨hs, hends⟩
    | raise e => exact hends
    | act upd next ih =>
      intro t hrely _ _
      have ht := hstable s t hrely hs
      exact ⟨trivial, trivial, ih t (h t).2 (hends t) (upd t) (hkeeps t _ (h t).1 ht)⟩

theorem meets_of_ends (h : p.Ends Q E) : Meets rely K p Q E where
  sat s hs := by
    clear hs
    induction p generalizing s with
    | ret a => exact h
    | raise e => exact h
    | act upd next ih =>
      intro t _ _ _
      exact ⟨trivial, trivial, ih t (h t) (upd t)⟩

theorem meets_bind {R : β → Prop} {p : Prog σ ε β} {f : β → Prog σ ε α}
    (hp : Holds rely K p R E) (hf : ∀ b, R b → Meets rely K (f b) Q E) :
    Meets rely K (p.bind f) Q E where
  sat s hs := sat_bind (hp.sat s hs) fun b t hb => (hf b hb.2).sat t hb.1

theorem meets_bind_ends {R : β → Prop} {p : Prog σ ε β} {f : β → Prog σ ε α}
    (hp : Meets rely K p R E) (hf : ∀ b, R b → (f b).Ends Q E) :
    Meets rely K (p.bind f) Q E where
  sat s hs := sat_bind (hp.sat s hs) fun b t hb =>
    (meets_of_ends (K := fun _ => True) (hf b hb)).sat t trivial

theorem meets_act {upd : σ → σ} {next : σ → Prog σ ε α} (hstable : Stable rely K)
    (hnext : ∀ t, K t → (next t).Sat (.among rely) (fun a _ => Q a) (fun e _ => E e) (upd t)) :
    Meets rely K (act upd next) Q E where
  sat s hs t hrely _ _ := ⟨trivial, trivial, hnext t (hstable s t hrely hs)⟩

theorem meets_tryCatch {R : ε → Prop} {handler : ε → Prog σ ε α} (hp : Meets rely K p Q R)
    (hh : ∀ e, R e → (handler e).Ends Q E) : Meets rely K (p.tryCatch handler) Q E where
  sat s hs := sat_tryCatch (hp.sat s hs) fun e t he =>
    (meets_of_ends (K := fun _ => True) (hh e he)).sat t trivial

theorem meets_finallyDo {cleanup : Prog σ ε Unit} (hp : Meets rely K p Q E)
    (hc : cleanup.Ends (fun _ => True) E) : Meets rely K (p.finallyDo cleanup) Q E := by
  refine meets_bind_ends (R := Q) ⟨fun s hs => ?_⟩ fun a ha => ends_bind hc fun _ _ => ha
  refine sat_tryCatch (hp.sat s hs) fun e t he => ?_
  have hraise : (cleanup.bind fun _ => (raise e : Prog σ ε α)).Ends Q E :=
    ends_bind hc fun _ _ => ends_raise.mpr he
  exact (meets_of_ends (K := fun _ => True) hraise).sat t trivial

theorem Meets.reaches {env : σ → σ → Prop} (h : Meets rely K p Q E)
    (hrefl : ∀ s, rely s s) (henv : ∀ s t t', rely s t → env t t' → rely s t') {s t : σ} {a : α}
    (hs : K s) (hreach : Reaches env p s (ret a) t) : Q a := by
  obtain ⟨_, -, -, hend⟩ := (h.sat s hs).reaches trivial hrefl
    (fun _ _ _ hrely _ hmove => ⟨henv _ _ _ hrely hmove, trivial⟩) (fun _ _ _ => trivial) hreach
  exact hend

theorem reaches_run {env : σ → σ → Prop} {s₀ s t : σ} {p₀ : Prog σ ε α} {a : α}
    (hreach : Reaches env p₀ s₀ p s) (hrun : p.run s = (.ok a, t)) :
    Reaches env p₀ s₀ (ret a) t := by
  induction p generalizing s with
  | ret b =>
    cases hrun
    exact hreach
  | raise e => cases hrun
  | act upd next ih => exact ih s hreach.own hrun

end Prog

end ArchLoop.Lib
