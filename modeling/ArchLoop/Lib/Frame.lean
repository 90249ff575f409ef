import ArchLoop.Lib.Rely

/-!
# `ArchLoop.Lib.Frame`: what every step of a program leaves alone

`Always P p` says that each step of `p`, from any state `s`, moves to a state `t` with
`P s t`. `Keeps f p` is the case where `f` reads the same before and after. Both follow from
the code alone, without an invariant, so the `simp` lemmas here prove them by taking the
code apart.

`Always.sat` turns such a frame fact into a rely-guarantee triple that carries what the
program knew before across it. `Keeps.run` and `Keeps.crashAfter` are the forms for a
program alone.

`Ends Q E p` says the same of ends instead of steps: whatever the states that `p` meets, each
value that it returns satisfies `Q` and each error that it throws satisfies `E`.
-/

set_option autoImplicit false

namespace ArchLoop.Lib.Prog

universe u

variable {σ : Type u} {ε α β : Type}

/-- Each step of the program, from any state, is related by `P`. -/
def Always (P : σ → σ → Prop) : Prog σ ε α → Prop
  | ret _ => True
  | raise _ => True
  | act upd next => ∀ s, P s (upd s) ∧ Always P (next s)

/-- No step of the program changes what `f` reads. -/
def Keeps {τ : Type} (f : σ → τ) (p : Prog σ ε α) : Prop :=
  p.Always fun s t => f t = f s

variable {P P' : σ → σ → Prop}

@[simp] theorem always_ret (a : α) : Always P (ret a : Prog σ ε α) := trivial

@[simp] theorem always_raise (e : ε) : Always P (raise e : Prog σ ε α) := trivial

@[simp] theorem always_act {upd : σ → σ} {next : σ → Prog σ ε α} :
    Always P (act upd next) ↔ ∀ s, P s (upd s) ∧ Always P (next s) := Iff.rfl

@[simp] theorem always_reads {f : σ → α} :
    Always P (reads f : Prog σ ε α) ↔ ∀ s, P s s := by
  simp [reads]

@[simp] theorem always_modify {f : σ → σ} :
    Always P (modify f : Prog σ ε Unit) ↔ ∀ s, P s (f s) := by
  simp [modify]

theorem always_bind {p : Prog σ ε α} {f : α → Prog σ ε β} (hp : Always P p)
    (hf : ∀ a, Always P (f a)) : Always P (p.bind f) := by
  induction p with
  | ret a => exact hf a
  | raise e => trivial
  | act upd next ih => exact fun s => ⟨(hp s).1, ih s (hp s).2⟩

theorem always_tryCatch {p : Prog σ ε α} {handler : ε → Prog σ ε α} (hp : Always P p)
    (hh : ∀ e, Always P (handler e)) : Always P (p.tryCatch handler) := by
  induction p with
  | ret a => trivial
  | raise e => exact hh e
  | act upd next ih => exact fun s => ⟨(hp s).1, ih s (hp s).2⟩

theorem always_mapError {ε' : Type} {f : ε → ε'} {p : Prog σ ε α} (hp : Always P p) :
    Always P (p.mapError f) := by
  induction p with
  | ret a => trivial
  | raise e => trivial
  | act upd next ih => exact fun s => ⟨(hp s).1, ih s (hp s).2⟩

theorem always_when {c : Bool} {p : Prog σ ε Unit} (hp : Always P p) :
    Always P (when c p) := by
  cases c with
  | true => exact hp
  | false => trivial

theorem always_finallyDo {p : Prog σ ε α} {cleanup : Prog σ ε Unit} (hp : Always P p)
    (hc : Always P cleanup) : Always P (p.finallyDo cleanup) :=
  always_bind (always_tryCatch hp fun _ => always_bind hc fun _ => trivial)
    fun _ => always_bind hc fun _ => trivial

theorem Always.mono {p : Prog σ ε α} (h : Always P p) (hP : ∀ s t, P s t → P' s t) :
    Always P' p := by
  induction p with
  | ret a => trivial
  | raise e => trivial
  | act upd next ih => exact fun s => ⟨hP _ _ (h s).1, ih s (h s).2⟩

/-- A framed program carries the knowledge `K` from one of its steps to the next, when each
related step that may be taken gives the guarantee and keeps the invariant and `K`. -/
theorem Always.sat_step {rules : Rules σ} {p : Prog σ ε α} (h : Always P p) {K : σ → Prop}
    {s : σ}
    (hstep : ∀ s t t', rules.rely s t → rules.inv t → rules.allowed s t t' → K s → P t t' →
      rules.guar s t t' ∧ rules.inv t' ∧ K t') (hs : K s) :
    Sat rules (fun _ => K) (fun _ => K) p s := by
  induction p generalizing s with
  | ret a => exact hs
  | raise e => exact hs
  | act upd next ih =>
    intro t hr hi ha
    obtain ⟨hg, hi', ht'⟩ := hstep s t (upd t) hr hi ha hs (h t).1
    exact ⟨hg, hi', ih t (h t).2 ht'⟩

theorem Always.sat {rules : Rules σ} {p : Prog σ ε α} (h : Always P p) {K : σ → Prop} {s : σ}
    (hstep : ∀ s t t', rules.inv t → K t → P t t' →
      rules.guar s t t' ∧ rules.inv t' ∧ K t')
    (hrely : ∀ s t, rules.rely s t → rules.inv t → K s → K t) (hs : K s) :
    Sat rules (fun _ => K) (fun _ => K) p s :=
  h.sat_step (fun s t t' hr hi _ hK => hstep s t t' hi (hrely s t hr hi hK)) hs

theorem Always.run {p : Prog σ ε α} (h : Always P p) (hrefl : ∀ s, P s s)
    (htrans : ∀ s t u, P s t → P t u → P s u) (s : σ) : P s (p.run s).2 := by
  induction p generalizing s with
  | ret a => exact hrefl s
  | raise e => exact hrefl s
  | act upd next ih => exact htrans _ _ _ (h s).1 (ih s (h s).2 (upd s))

theorem Always.crashAfter {p : Prog σ ε α} (h : Always P p) (hrefl : ∀ s, P s s)
    (htrans : ∀ s t u, P s t → P t u → P s u) (n : Nat) (s : σ) :
    P s (p.crashAfter n s) := by
  induction p generalizing n s with
  | ret a => simpa [Prog.crashAfter] using hrefl s
  | raise e => simpa [Prog.crashAfter] using hrefl s
  | act upd next ih =>
    cases n with
    | zero => simpa using hrefl s
    | succ n => exact htrans _ _ _ (h s).1 (ih s (h s).2 n (upd s))

/-! ### Steps of one run -/

/-- Each step of the program, run alone from `s`, is related by `P`. -/
def Along (P : σ → σ → Prop) : Prog σ ε α → σ → Prop
  | ret _, _ => True
  | raise _, _ => True
  | act upd next, s => P s (upd s) ∧ Along P (next s) (upd s)

instance decidableAlong [h : ∀ s t, Decidable (P s t)] :
    (p : Prog σ ε α) → (s : σ) → Decidable (Along P p s)
  | ret _, _ => isTrue trivial
  | raise _, _ => isTrue trivial
  | act upd next, s => @instDecidableAnd _ _ (h s (upd s)) (decidableAlong (next s) (upd s))

theorem Along.combine {Q R : σ → σ → Prop} {p : Prog σ ε α} {s : σ} (h : Along P p s)
    (h' : Along Q p s) (hR : ∀ s t, P s t → Q s t → R s t) : Along R p s := by
  induction p generalizing s with
  | ret a => trivial
  | raise e => trivial
  | act upd next ih => exact ⟨hR _ _ h.1 h'.1, ih s h.2 h'.2⟩

theorem Always.along {p : Prog σ ε α} (h : Always P p) {I : σ → Prop} {s : σ}
    (hstep : ∀ s t, I s → P s t → P' s t ∧ I t) (hs : I s) : Along P' p s := by
  induction p generalizing s with
  | ret a => trivial
  | raise e => trivial
  | act upd next ih =>
    obtain ⟨hP, hI⟩ := hstep s (upd s) hs (h s).1
    exact ⟨hP, ih s (h s).2 hI⟩

variable {τ : Type} {f : σ → τ}

theorem keeps_ret (a : α) : Keeps f (ret a : Prog σ ε α) := trivial

theorem keeps_raise (e : ε) : Keeps f (raise e : Prog σ ε α) := trivial

theorem keeps_bind {p : Prog σ ε α} {g : α → Prog σ ε β} (hp : Keeps f p)
    (hg : ∀ a, Keeps f (g a)) : Keeps f (p.bind g) :=
  always_bind hp hg

theorem keeps_when {c : Bool} {p : Prog σ ε Unit} (hp : Keeps f p) : Keeps f (when c p) :=
  always_when hp

theorem keeps_attempt {p : Prog σ ε α} (hp : Keeps f p) : Keeps f (attempt p) :=
  always_tryCatch (always_bind hp fun _ => trivial) fun _ => trivial

theorem Keeps.run {p : Prog σ ε α} (h : p.Keeps f) (s : σ) : f (p.run s).2 = f s :=
  Always.run h (fun _ => rfl) (fun _ _ _ h₁ h₂ => h₂.trans h₁) s

theorem Keeps.of_run {p : Prog σ ε α} (h : p.Keeps f) {s t : σ} {result : Except ε α}
    (hrun : p.run s = (result, t)) : f t = f s := by
  have hkeeps := h.run s
  rwa [hrun] at hkeeps

theorem Keeps.crashAfter {p : Prog σ ε α} (h : p.Keeps f) (n : Nat) (s : σ) :
    f (p.crashAfter n s) = f s :=
  Always.crashAfter h (fun _ => rfl) (fun _ _ _ h₁ h₂ => h₂.trans h₁) n s

/-! ### What a program can end with -/

/-- In any states, the program returns only values with `Q` and throws only errors with
`E`. -/
def Ends (Q : α → Prop) (E : ε → Prop) : Prog σ ε α → Prop
  | ret a => Q a
  | raise e => E e
  | act _ next => ∀ s, Ends Q E (next s)

variable {Q : α → Prop} {E : ε → Prop}

@[simp] theorem ends_ret {a : α} : Ends Q E (ret a : Prog σ ε α) ↔ Q a := Iff.rfl

@[simp] theorem ends_raise {e : ε} : Ends Q E (raise e : Prog σ ε α) ↔ E e := Iff.rfl

theorem ends_bind {R : β → Prop} {p : Prog σ ε α} {f : α → Prog σ ε β} (hp : Ends Q E p)
    (hf : ∀ a, Q a → Ends R E (f a)) : Ends R E (p.bind f) := by
  induction p with
  | ret a => exact hf a hp
  | raise e => exact hp
  | act upd next ih => exact fun s => ih s (hp s)

theorem ends_tryCatch {R : ε → Prop} {p : Prog σ ε α} {handler : ε → Prog σ ε α}
    (hp : Ends Q R p) (hh : ∀ e, R e → Ends Q E (handler e)) : Ends Q E (p.tryCatch handler) := by
  induction p with
  | ret a => exact hp
  | raise e => exact hh e hp
  | act upd next ih => exact fun s => ih s (hp s)

theorem Ends.mono {R : α → Prop} {E' : ε → Prop} {p : Prog σ ε α} (h : Ends Q E p)
    (hQ : ∀ a, Q a → R a) (hE : ∀ e, E e → E' e) : Ends R E' p := by
  induction p with
  | ret a => exact hQ a h
  | raise e => exact hE e h
  | act upd next ih => exact fun s => ih s (h s)

theorem ends_true (p : Prog σ ε α) : Ends (fun _ => True) (fun _ => True) p := by
  induction p with
  | ret a => trivial
  | raise e => trivial
  | act upd next ih => exact fun s => ih s

theorem ends_finallyDo {p : Prog σ ε α} {cleanup : Prog σ ε Unit} (hp : Ends Q E p)
    (hc : Ends (fun _ => True) E cleanup) : Ends Q E (p.finallyDo cleanup) := by
  refine ends_bind (ends_tryCatch hp fun e he => ends_bind hc fun _ _ => he) fun a ha => ?_
  exact ends_bind hc fun _ _ => ha

theorem Ends.run_ok {p : Prog σ ε α} (h : Ends Q E p) {s t : σ} {a : α}
    (hrun : p.run s = (.ok a, t)) : Q a := by
  induction p generalizing s with
  | ret b => cases hrun; exact h
  | raise e => cases hrun
  | act upd next ih => exact ih s (h s) hrun

theorem Ends.run_error {p : Prog σ ε α} (h : Ends Q E p) {s t : σ} {e : ε}
    (hrun : p.run s = (.error e, t)) : E e := by
  induction p generalizing s with
  | ret b => cases hrun
  | raise e => cases hrun; exact h
  | act upd next ih => exact ih s (h s) hrun

end ArchLoop.Lib.Prog
