import ArchLoop.Lib.Frame

/-!
# `ArchLoop.Lib.Alone`: programs that run alone to their end

`Returns p s Q` says that `p`, run alone from `s`, returns, and that `Q` holds of its value
and of the state it leaves: a total Hoare triple. `returns_bind`, `returns_reads_bind` and
`returns_mono` take a program apart along the code.

`Makes P p` is the frame `Always P p` of a program that has no branch that throws. Such a
program returns, and `P` relates the states before and after (`Makes.returns`).
-/

set_option autoImplicit false

namespace ArchLoop.Lib.Prog

universe u

variable {σ : Type u} {ε α β : Type} {P P' : σ → σ → Prop}

/-! ### Frames of programs that never throw -/

/-- Each step of the program, from any state, is related by `P`, and no branch throws. -/
def Makes (P : σ → σ → Prop) : Prog σ ε α → Prop
  | ret _ => True
  | raise _ => False
  | act upd next => ∀ s, P s (upd s) ∧ Makes P (next s)

@[simp] theorem makes_ret (a : α) : Makes P (ret a : Prog σ ε α) := trivial

@[simp] theorem makes_reads {f : σ → α} : Makes P (reads f : Prog σ ε α) ↔ ∀ s, P s s := by
  simp [reads, Makes]

@[simp] theorem makes_modify {f : σ → σ} :
    Makes P (modify f : Prog σ ε Unit) ↔ ∀ s, P s (f s) := by
  simp [modify, Makes]

theorem makes_bind {p : Prog σ ε α} {f : α → Prog σ ε β} (hp : Makes P p)
    (hf : ∀ a, Makes P (f a)) : Makes P (p.bind f) := by
  induction p with
  | ret a => exact hf a
  | raise e => cases hp
  | act upd next ih => exact fun s => ⟨(hp s).1, ih s (hp s).2⟩

theorem makes_when {c : Bool} {p : Prog σ ε Unit} (hp : Makes P p) : Makes P (when c p) := by
  cases c with
  | true => exact hp
  | false => trivial

theorem Makes.mono {p : Prog σ ε α} (h : Makes P p) (hP : ∀ s t, P s t → P' s t) :
    Makes P' p := by
  induction p with
  | ret a => trivial
  | raise e => cases h
  | act upd next ih => exact fun s => ⟨hP _ _ (h s).1, ih s (h s).2⟩

theorem Makes.and {p : Prog σ ε α} (h : Makes P p) (h' : Makes P' p) :
    Makes (fun s t => P s t ∧ P' s t) p := by
  induction p with
  | ret a => trivial
  | raise e => cases h
  | act upd next ih => exact fun s => ⟨⟨(h s).1, (h' s).1⟩, ih s (h s).2 (h' s).2⟩

theorem Makes.always {p : Prog σ ε α} (h : Makes P p) : Always P p := by
  induction p with
  | ret a => trivial
  | raise e => trivial
  | act upd next ih => exact fun s => ⟨(h s).1, ih s (h s).2⟩

theorem Makes.ends {p : Prog σ ε α} (h : Makes P p) {E : ε → Prop} :
    Ends (fun _ => True) E p := by
  induction p with
  | ret a => trivial
  | raise e => cases h
  | act upd next ih => exact fun s => ih s (h s).2

/-! ### Total triples -/

/-- Run alone from `s`, the program returns with `Q` of its value and the state it leaves. -/
def Returns (p : Prog σ ε α) (s : σ) (Q : α → σ → Prop) : Prop :=
  ∃ a t, p.run s = (.ok a, t) ∧ Q a t

variable {Q : α → σ → Prop} {s : σ}

theorem returns_ret {a : α} (h : Q a s) : Returns (ret a : Prog σ ε α) s Q :=
  ⟨a, s, rfl, h⟩

theorem returns_modify {f : σ → σ} {Q : Unit → σ → Prop} (h : Q () (f s)) :
    Returns (modify f : Prog σ ε Unit) s Q :=
  ⟨(), f s, rfl, h⟩

theorem returns_bind {p : Prog σ ε α} {f : α → Prog σ ε β} {R : β → σ → Prop}
    (hp : Returns p s Q) (hf : ∀ a t, Q a t → Returns (f a) t R) :
    Returns (p.bind f) s R := by
  obtain ⟨a, t, hrun, ha⟩ := hp
  obtain ⟨b, u, hrun', hb⟩ := hf a t ha
  refine ⟨b, u, ?_, hb⟩
  rw [run_bind_ok hrun, hrun']

theorem returns_reads_bind {τ : Type} {f : σ → τ} {g : τ → Prog σ ε α} :
    Returns ((reads f).bind g) s Q ↔ Returns (g (f s)) s Q := Iff.rfl

theorem returns_modify_bind {f : σ → σ} {g : Unit → Prog σ ε α} :
    Returns ((modify f).bind g) s Q ↔ Returns (g ()) (f s) Q := Iff.rfl

theorem returns_when {c : Bool} {p : Prog σ ε Unit} {Q : Unit → σ → Prop}
    (hp : c = true → Returns p s Q) (hs : c = false → Q () s) : Returns (when c p) s Q := by
  cases c with
  | true => exact hp rfl
  | false => exact returns_ret (hs rfl)

theorem returns_mono {Q' : α → σ → Prop} {p : Prog σ ε α} (h : Returns p s Q)
    (hQ : ∀ a t, Q a t → Q' a t) : Returns p s Q' := by
  obtain ⟨a, t, hrun, ha⟩ := h
  exact ⟨a, t, hrun, hQ a t ha⟩

theorem returns_and {Q' : α → σ → Prop} {p : Prog σ ε α} (h : Returns p s Q)
    (h' : Returns p s Q') : Returns p s fun a t => Q a t ∧ Q' a t := by
  obtain ⟨a, t, hrun, ha⟩ := h
  obtain ⟨b, u, hrun', hb⟩ := h'
  obtain ⟨rfl, rfl⟩ : a = b ∧ t = u := by simpa using hrun.symm.trans hrun'
  exact ⟨a, t, hrun, ha, hb⟩

theorem Returns.of_run {p : Prog σ ε α} (h : Returns p s Q) {t : σ} {result : Except ε α}
    (hrun : p.run s = (result, t)) : ∃ a, result = .ok a ∧ Q a t := by
  obtain ⟨a, u, hok, ha⟩ := h
  obtain ⟨rfl, rfl⟩ : result = .ok a ∧ t = u := by simpa using hrun.symm.trans hok
  exact ⟨a, rfl, ha⟩

theorem Returns.exec {p : Prog σ ε α} {R : σ → Prop} (h : Returns p s fun _ => R) :
    R (p.exec s) := by
  obtain ⟨a, t, hrun, ht⟩ := h
  rw [Prog.exec, hrun]
  exact ht

/-- A framed program that never throws returns, and the frame relates the states before and
after. -/
theorem Makes.returns {p : Prog σ ε α} (h : Makes P p) (hrefl : ∀ s, P s s)
    (htrans : ∀ s t u, P s t → P t u → P s u) (s : σ) : Returns p s fun _ t => P s t := by
  induction p generalizing s with
  | ret a => exact returns_ret (hrefl s)
  | raise e => cases h
  | act upd next ih =>
    obtain ⟨a, t, hrun, ht⟩ := ih s (h s).2 (upd s)
    exact ⟨a, t, hrun, htrans _ _ _ (h s).1 ht⟩

/-! ### Total triples and crashes -/

variable {inv : σ → Prop} {guar : σ → σ → Prop}

/-- A program that makes moves only carries the knowledge `K` to its end, and the invariant
over each of its steps, when each move does. -/
theorem Makes.sat_alone {p : Prog σ ε α} (h : Makes P p) {K : σ → Prop}
    (hstep : ∀ s t, inv s → K s → P s t → guar s t ∧ inv t ∧ K t) (hs : K s) :
    Sat (.alone inv guar) (fun _ => K) (fun _ _ => False) p s := by
  induction p generalizing s with
  | ret a => exact hs
  | raise e => cases h
  | act upd next ih =>
    refine sat_alone_act.mpr fun hinv => ?_
    obtain ⟨hguar, hinv', hs'⟩ := hstep s (upd s) hinv hs (h s).1
    exact ⟨hguar, hinv', ih s (h s).2 hs'⟩

/-- A framed program alone carries the knowledge `K`, and the invariant over each of its steps,
when each step that the frame admits does. -/
theorem Always.sat_alone {p : Prog σ ε α} (h : Always P p) {K : σ → Prop}
    (hstep : ∀ s t, inv s → K s → P s t → guar s t ∧ inv t ∧ K t) (hs : K s) :
    Sat (.alone inv guar) (fun _ => K) (fun _ => K) p s :=
  h.sat (fun _ t t' hinv hK hP => hstep t t' hinv hK hP) (fun _ _ heq _ hK => heq ▸ hK) hs

theorem Returns.sat {p : Prog σ ε α} {E : ε → σ → Prop} (h : Returns p s Q) :
    Sat (.alone (fun _ => True) fun _ _ => True) Q E p s := by
  obtain ⟨a, t, hrun, ha⟩ := h
  induction p generalizing s with
  | ret b =>
    cases hrun
    exact ha
  | raise e => exact nomatch hrun
  | act upd next ih => exact sat_alone_act.mpr fun _ => ⟨trivial, trivial, ih s hrun⟩

theorem Sat.returns {p : Prog σ ε α} (h : Sat (.alone inv guar) Q (fun _ _ => False) p s)
    (hs : inv s) : Returns p s Q := by
  have hrun := (h.run hs).2
  cases hresult : p.run s with
  | mk result t =>
    rw [hresult] at hrun
    cases result with
    | ok a => exact ⟨a, t, hresult, hrun⟩
    | error e => exact hrun.elim

end ArchLoop.Lib.Prog
