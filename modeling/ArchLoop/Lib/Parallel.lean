import ArchLoop.Lib.Rely

/-!
# `ArchLoop.Lib.Parallel`: programs side by side

`par schedule threads` runs several programs on one state, as `Promise.allSettled` does. The
schedule says whose step is next; when it is over, what is left of them runs one after the other.
So every interleaving of their steps is a schedule. The results come with the keys of the programs,
whether they are values or errors.

Each program is proved with rules of its own (`rulesOf`), in which the others count as the
environment. `sat_par` puts the proofs together, when the steps of a program are moves that the
other programs rely on. A statement `K` about the rest of the state goes along.

`Yields` is `Sat` for programs whose errors do not matter. It is a structure, so that a proof goes
by its rules and never looks into the steps.
-/

set_option autoImplicit false

namespace ArchLoop.Lib.Prog

universe u

variable {σ : Type u} {κ ε α : Type}

/-- The rest of the programs, one after the other. -/
def settle : List (κ × Prog σ ε α) → Prog σ ε (List (κ × Except ε α))
  | [] => ret []
  | (key, p) :: threads =>
    p.attempt.bind fun result =>
    (settle threads).bind fun results => ret ((key, result) :: results)

/-- The programs by the schedule. A turn of a program that is at its end is no step. -/
def par : List Nat → List (κ × Prog σ ε α) → Prog σ ε (List (κ × Except ε α))
  | [], threads => settle threads
  | turn :: schedule, threads =>
    match threads[turn]? with
    | some (key, act upd next) =>
      act upd fun s => par schedule (threads.set turn (key, next s))
    | _ => par schedule threads

/-! ### Rules -/

section Rules

variable {rules own : Rules σ} {Q : α → σ → Prop} {E : ε → σ → Prop} {K : σ → Prop}

theorem sat_beside {p : Prog σ ε α} {seen s : σ} (h : Sat own Q E p seen)
    (hinv : rules.inv = own.inv)
    (hrely : ∀ seen s t, own.rely seen s → rules.rely s t → own.rely seen t)
    (hrefl : ∀ s, own.rely s s)
    (hallowed : ∀ s t t', own.allowed s t t')
    (hguar : ∀ s t t', rules.guar s t t')
    (hstable : ∀ s t, rules.rely s t → K s → K t)
    (hkeeps : ∀ seen s t, own.guar seen s t → K s → K t)
    (hseen : own.rely seen s) (hK : K s) (hend : ∀ a seen s, own.rely seen s → Q a seen → Q a s)
    (hraised : ∀ e seen s, own.rely seen s → E e seen → E e s) :
    Sat rules (fun a t => Q a t ∧ K t) (fun e t => E e t ∧ K t) p s := by
  induction p generalizing seen s with
  | ret a => exact ⟨hend a seen s hseen h, hK⟩
  | raise e => exact ⟨hraised e seen s hseen h, hK⟩
  | act upd next ih =>
    intro t ht htinv _
    rw [hinv] at htinv
    obtain ⟨hg, hinv', hnext⟩ := h t (hrely _ _ _ hseen ht) htinv (hallowed _ _ _)
    have hKt := hkeeps _ _ _ hg (hstable _ _ ht hK)
    rw [hinv]
    exact ⟨hguar _ _ _, hinv', ih t hnext (hrefl _) hKt⟩

end Rules

/-! ### All of them -/

/-- The rules of the programs and of the whole fit together. -/
structure Fits (rules : Rules σ) (rulesOf : κ → Rules σ) : Prop where
  inv : ∀ key, rules.inv = (rulesOf key).inv
  refl : ∀ key s, (rulesOf key).rely s s
  trans : ∀ key r s t, (rulesOf key).rely r s → (rulesOf key).rely s t → (rulesOf key).rely r t
  env : ∀ key s t, rules.rely s t → (rulesOf key).rely s t
  allowed : ∀ key s t t', (rulesOf key).allowed s t t'
  guar : ∀ s t t', rules.guar s t t'
  /-- What one program does is what the others rely on. -/
  others : ∀ key other seen s t, key ≠ other → (rulesOf key).guar seen s t →
    (rulesOf other).rely s t

section Par

variable {rules : Rules σ} {rulesOf : κ → Rules σ} {Q : κ → Except ε α → σ → Prop} {K : σ → Prop}

/-- What the others rely on does not undo the end of a program. -/
def StableEnd (rulesOf : κ → Rules σ) (Q : κ → Except ε α → σ → Prop) : Prop :=
  ∀ key result s t, (rulesOf key).rely s t → Q key result s → Q key result t

/-- The program keeps its rules from a state that it has seen. -/
def Going (rulesOf : κ → Rules σ) (Q : κ → Except ε α → σ → Prop) (s : σ)
    (thread : κ × Prog σ ε α) : Prop :=
  ∃ seen, (rulesOf thread.1).rely seen s ∧
    Sat (rulesOf thread.1) (fun a => Q thread.1 (.ok a)) (fun e => Q thread.1 (.error e))
      thread.2 seen

theorem Going.move (hfits : Fits rules rulesOf) {s t : σ} {thread : κ × Prog σ ε α}
    (h : Going rulesOf Q s thread) (hmove : (rulesOf thread.1).rely s t) :
    Going rulesOf Q t thread := by
  obtain ⟨seen, hseen, hsat⟩ := h
  exact ⟨seen, hfits.trans _ _ _ _ hseen hmove, hsat⟩

/-- The statement about the rest of the state stands through all steps. -/
structure Lasts (rules : Rules σ) (rulesOf : κ → Rules σ) (keys : List κ) (K : σ → Prop) :
    Prop where
  env : ∀ s t, rules.rely s t → K s → K t
  step : ∀ key ∈ keys, ∀ seen s t, (rulesOf key).guar seen s t → K s → K t

theorem sat_settle (hfits : Fits rules rulesOf) (hend : StableEnd rulesOf Q)
    {threads : List (κ × Prog σ ε α)} (hkeys : (threads.map (·.1)).Nodup)
    (hlasts : Lasts rules rulesOf (threads.map (·.1)) K) {s : σ}
    (hgoing : ∀ thread ∈ threads, Going rulesOf Q s thread) (hK : K s) :
    Sat rules
      (fun results t => results.map (·.1) = threads.map (·.1) ∧
        (∀ entry ∈ results, Q entry.1 entry.2 t) ∧ K t)
      (fun _ _ => True) (settle threads) s := by
  induction threads generalizing s K with
  | nil => exact ⟨rfl, by simp, hK⟩
  | cons thread threads ih =>
    obtain ⟨key, p⟩ := thread
    rw [List.map_cons, List.nodup_cons] at hkeys
    obtain ⟨hfresh, hkeys⟩ := hkeys
    obtain ⟨seen, hseen, hsat⟩ := hgoing (key, p) List.mem_cons_self
    have hne : ∀ thread ∈ threads, key ≠ thread.1 := by
      intro thread hthread heq
      have hmem := List.mem_map_of_mem (f := fun thread : κ × Prog σ ε α => thread.1) hthread
      exact hfresh (heq ▸ hmem)
    -- while the first one runs, the others wait
    have hwait : ∀ s t, (∀ thread ∈ threads, Going rulesOf Q s thread) →
        (∀ thread ∈ threads, (rulesOf thread.1).rely s t) →
        ∀ thread ∈ threads, Going rulesOf Q t thread := fun s t hall hmove thread hthread =>
      (hall thread hthread).move hfits (hmove thread hthread)
    have hfirst : Sat rules
        (fun result t => Q key result t ∧ (∀ thread ∈ threads, Going rulesOf Q t thread) ∧ K t)
        (fun _ _ => True) p.attempt s := by
      refine sat_attempt ?_
      refine sat_beside (K := fun t => (∀ thread ∈ threads, Going rulesOf Q t thread) ∧ K t) hsat
        (hfits.inv key) (fun r s t hr ht => hfits.trans key r s t hr (hfits.env key s t ht))
        (hfits.refl key) (hfits.allowed key) hfits.guar ?_ ?_ hseen
        ⟨fun thread hthread => hgoing thread (List.mem_cons_of_mem _ hthread), hK⟩
        (fun a r t => hend key (.ok a) r t) (fun e r t => hend key (.error e) r t)
      · rintro s t hmove ⟨hall, hKs⟩
        exact ⟨hwait s t hall fun thread _ => hfits.env thread.1 s t hmove,
          hlasts.env s t hmove hKs⟩
      · rintro r s t hg ⟨hall, hKs⟩
        exact ⟨hwait s t hall fun thread hthread =>
          hfits.others key thread.1 r s t (hne thread hthread) hg,
          hlasts.step key List.mem_cons_self r s t hg hKs⟩
    refine sat_bind hfirst ?_
    rintro result t ⟨hresult, hall, hKt⟩
    -- while the others run, its result stands
    have hlasts' : Lasts rules rulesOf (threads.map (·.1)) fun t => Q key result t ∧ K t := by
      constructor
      · rintro s t hmove ⟨hq, hKs⟩
        exact ⟨hend key result s t (hfits.env key s t hmove) hq, hlasts.env s t hmove hKs⟩
      · rintro other hother r s t hg ⟨hq, hKs⟩
        have hother' : other ≠ key := fun heq => hfresh (heq ▸ hother)
        exact ⟨hend key result s t (hfits.others other key r s t hother' hg) hq,
          hlasts.step other (List.mem_cons_of_mem _ hother) r s t hg hKs⟩
    refine sat_bind (ih hkeys hlasts' hall ⟨hresult, hKt⟩) ?_
    rintro results u ⟨hmap, hentries, hq, hKu⟩
    refine ⟨by rw [List.map_cons, List.map_cons, hmap], ?_, hKu⟩
    intro entry hentry
    rcases List.mem_cons.mp hentry with rfl | hrest
    · exact hq
    · exact hentries entry hrest

theorem keys_inj {threads : List (κ × Prog σ ε α)} (hkeys : (threads.map (·.1)).Nodup) {i j : Nat}
    {a b : κ × Prog σ ε α} (hi : threads[i]? = some a) (hj : threads[j]? = some b)
    (heq : a.1 = b.1) : i = j := by
  have hi' : (threads.map (·.1))[i]? = some a.1 := by rw [List.getElem?_map, hi, Option.map_some]
  have hj' : (threads.map (·.1))[j]? = some a.1 := by
    rw [List.getElem?_map, hj, Option.map_some, heq]
  have hlength : i < (threads.map (·.1)).length := (List.getElem?_eq_some_iff.mp hi').1
  exact (List.getElem?_inj hlength hkeys).mp (hi'.trans hj'.symm)

theorem sat_par (hfits : Fits rules rulesOf) (hend : StableEnd rulesOf Q)
    (schedule : List Nat) {threads : List (κ × Prog σ ε α)}
    (hkeys : (threads.map (·.1)).Nodup)
    (hlasts : Lasts rules rulesOf (threads.map (·.1)) K) {s : σ}
    (hgoing : ∀ thread ∈ threads, Going rulesOf Q s thread) (hK : K s) :
    Sat rules
      (fun results t => results.map (·.1) = threads.map (·.1) ∧
        (∀ entry ∈ results, Q entry.1 entry.2 t) ∧ K t)
      (fun _ _ => True) (par schedule threads) s := by
  induction schedule generalizing threads s with
  | nil => exact sat_settle hfits hend hkeys hlasts hgoing hK
  | cons turn schedule ih =>
    unfold par
    split
    · rename_i key upd next hturn
      intro t hmove hinv _
      have hmem : (key, act upd next) ∈ threads := List.mem_of_getElem? hturn
      obtain ⟨seen, hseen, hsat⟩ := hgoing _ hmem
      have hrely := hfits.trans key _ _ _ hseen (hfits.env key _ _ hmove)
      rw [hfits.inv key] at hinv
      obtain ⟨hg, hinv', hnext⟩ := hsat t hrely hinv (hfits.allowed key _ _ _)
      have hsame : (threads.set turn (key, next t)).map (·.1) = threads.map (·.1) := by
        rw [List.map_set]
        refine List.ext_getElem? fun i => ?_
        rw [List.getElem?_set]
        split
        · rename_i heq
          subst heq
          split
          · rw [List.getElem?_map, hturn]
            rfl
          · rename_i hout
            rw [List.getElem?_eq_none (by simpa using hout)]
        · rfl
      refine ⟨hfits.guar _ _ _, hfits.inv key ▸ hinv', ?_⟩
      rw [← hsame]
      refine ih (hsame ▸ hkeys) (hsame ▸ hlasts) ?_ ?_
      · intro thread hthread
        obtain ⟨i, hi⟩ := List.mem_iff_getElem?.mp hthread
        rw [List.getElem?_set] at hi
        split at hi
        · -- the one whose turn it was
          split at hi
          · cases hi
            exact ⟨_, hfits.refl key _, hnext⟩
          · cases hi
        · rename_i hi'
          have hother : key ≠ thread.1 := fun heq => hi' (keys_inj hkeys hturn hi heq)
          have hwaits := (hgoing thread (List.mem_of_getElem? hi)).move hfits
            (hfits.env thread.1 _ _ hmove)
          exact hwaits.move hfits (hfits.others key thread.1 _ _ _ hother hg)
      · exact hlasts.step key (List.mem_map_of_mem hmem) _ _ _ hg (hlasts.env _ _ hmove hK)
    · exact ih hkeys hlasts hgoing hK

end Par

/-! ### Values -/

/-- The program keeps the rules and returns a value in `Q`, if it returns. -/
structure Yields (rules : Rules σ) (Q : α → σ → Prop) (p : Prog σ ε α) (s : σ) : Prop where
  sat : p.Sat rules Q (fun _ _ => True) s

section Yields

variable {β : Type} {rules : Rules σ} {Q : α → σ → Prop} {s : σ} {p : Prog σ ε α}

theorem yields_ret {a : α} (h : Q a s) : Yields rules Q (ret a : Prog σ ε α) s := ⟨h⟩

theorem yields_raise {e : ε} : Yields rules Q (raise e : Prog σ ε α) s := ⟨trivial⟩

theorem Yields.mono {Q' : α → σ → Prop} (h : Yields rules Q p s) (hQ : ∀ a t, Q a t → Q' a t) :
    Yields rules Q' p s :=
  ⟨sat_mono h.sat hQ fun _ _ h => h⟩

theorem Yields.bind {Q' : β → σ → Prop} {f : α → Prog σ ε β} (h : Yields rules Q p s)
    (hf : ∀ a t, Q a t → Yields rules Q' (f a) t) : Yields rules Q' (p.bind f) s :=
  ⟨sat_bind h.sat fun a t ha => (hf a t ha).sat⟩

theorem Yields.attempt (h : Yields rules Q p s) :
    Yields (ε := ε) rules (fun result t => ∀ a, result = .ok a → Q a t) p.attempt s := by
  refine ⟨sat_attempt (sat_mono h.sat ?_ ?_)⟩
  · intro a t ha b heq
    cases heq
    exact ha
  · intro e _ _ b heq
    cases heq

theorem Yields.tryCatch {handler : ε → Prog σ ε α} (h : Yields rules Q p s)
    (hh : ∀ e t, Yields rules Q (handler e) t) : Yields rules Q (p.tryCatch handler) s :=
  ⟨sat_tryCatch h.sat fun e t _ => (hh e t).sat⟩

theorem Yields.beside {own : Rules σ} {K : σ → Prop} (h : Yields own Q p s)
    (hinv : rules.inv = own.inv)
    (hrely : ∀ seen s t, own.rely seen s → rules.rely s t → own.rely seen t)
    (hrefl : ∀ s, own.rely s s)
    (hallowed : ∀ s t t', own.allowed s t t')
    (hguar : ∀ s t t', rules.guar s t t')
    (hstable : ∀ s t, rules.rely s t → K s → K t)
    (hkeeps : ∀ seen s t, own.guar seen s t → K s → K t)
    (hend : ∀ a seen s, own.rely seen s → Q a seen → Q a s) (hK : K s) :
    Yields rules (fun a t => Q a t ∧ K t) p s := by
  have hsat := sat_beside h.sat hinv hrely hrefl hallowed hguar hstable hkeeps (hrefl s) hK hend
    fun _ _ _ _ _ => trivial
  exact ⟨sat_mono hsat (fun _ _ h => h) fun _ _ _ => trivial⟩

end Yields

end ArchLoop.Lib.Prog
