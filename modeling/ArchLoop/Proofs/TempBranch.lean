import ArchLoop.Lib.Among
import ArchLoop.Lib.History
import ArchLoop.SandboxLifecycle

/-!
# `ArchLoop.Proofs.TempBranch`: the commits of a temp branch

Without an explicit branch, `withSandboxLifecycle` merges a temp branch into the branch that the
host was on, deletes the temp branch and returns the commits. No commit should get lost on the
way, no other branch should move, and the returned commits should be the agent's
(`KeepsCommits`).

The count of new commits looks at `HEAD` of the worktree, the merge goes to whatever the host has
checked out then, a failing count stands for no commits, and the returned commits are all that the
host branch got since the base. `keepsCommits_reached` says when all this comes to the same: the
host stays on its branch and nobody else moves it, the temp branch starts at the host's commit,
the worktree is at its tip when the commits are counted, and the count and the list work.
-/

set_option autoImplicit false

namespace ArchLoop.Lifecycle

open ArchLoop.Lib

/-! ### Statement -/

/-- The states in which a call has taken its steps so far. -/
abbrev Seen : Type := List GitRepo

def noteSeen (s _ : GitRepo) (seen : Seen) : Seen := seen ++ [s]

/-- The branch that the call recorded for the host: it is the first thing it looks at. -/
def recordedHost (seen : Seen) : Option String :=
  seen[0]?.bind fun s => s.abbrevRef s.hostHead

/-- The branch that the call recorded for the sandbox. -/
def recordedBranch (seen : Seen) : Option String :=
  seen[1]?.bind GitRepo.sandboxAbbrevRef

def recordedBase (seen : Seen) : Option (Commit CommitInfo) :=
  seen[2]?.bind fun s => s.commitOf s.worktreeHead

/-- A step of a call with the recorded branches `host` and `temp` loses and misplaces nothing.

- `deletes`: the temp branch is deleted only when the host branch contains its tip.
- `moves`: no other branch moves, and the temp branch only goes away.
- `advances`: the host branch only advances.
- `hostHead`: the host checkout stays on what it is on. -/
structure SafeStep (host temp : String) (s t : GitRepo) : Prop where
  deletes : ∀ tip, s.branches temp = some tip → t.branches temp = none →
    ∃ hostTip, s.branches host = some hostTip ∧ tip ∈ hostTip.ancestors
  moves : ∀ name, t.branches name ≠ s.branches name →
    name = host ∨ name = temp ∧ t.branches name = none
  advances : ∀ old, s.branches host = some old →
    ∃ new, t.branches host = some new ∧ old ∈ new.ancestors
  hostHead : t.hostHead = s.hostHead

/-- The returned commits are those of the agent and of the merge on the returned branch, which is
the recorded one. -/
def ExactCommits {α : Type} (host : String) (result : SandboxLifecycleResult α) (s : GitRepo) :
    Prop :=
  result.branch = host ∧ ∃ tip, s.branches host = some tip ∧
    ∀ commit, commit ∈ result.commits ↔
      commit ∈ tip.ancestors ∧ commit.data.author ≠ .other

/-- What is left of the call keeps the commits: its next step is safe, and so is what it has
returned. -/
def KeepsCommits {α : Type} (q : Prog (GitRepo × Seen) String (SandboxLifecycleResult α))
    (s : GitRepo × Seen) : Prop :=
  ∀ host temp, recordedHost s.2 = some host → recordedBranch s.2 = some temp →
    SafeStep host temp s.1 (q.nextState s).1 ∧
      ∀ result, q = .ret result → ExactCommits host result s.1

def commandsBeforeCount (options : SandboxLifecycleOptions) : Nat :=
  if options.applyToHost.isSome then 4 else 3

/-- Others move the repository from `s` to `t` and leave the host checkout alone, and once the new
commits are counted also the temp branch. -/
structure LeavesHost (options : SandboxLifecycleOptions) (s t : GitRepo × Seen) : Prop where
  seen : t.2 = s.2
  hostHead : t.1.hostHead = s.1.hostHead
  hostBranch : ∀ host, s.1.hostHead = .branch host → t.1.branches host = s.1.branches host
  tempBranch : commandsBeforeCount options < s.2.length →
    ∀ temp, recordedBranch s.2 = some temp → t.1.branches temp = s.1.branches temp

/-- What the call finds where it looks.

- `host`, `branch`: the host and the sandbox are on a branch.
- `base`: the worktree starts at the host's commit, and nothing of the agent is there yet.
- `count`: the count works and finds the worktree at the tip of the temp branch, on which only
  the agent has made commits. -/
structure FindsInPlace (options : SandboxLifecycleOptions) (seen : Seen) : Prop where
  host : ∀ s, seen[0]? = some s → ∃ name, s.hostHead = .branch name
  branch : recordedBranch seen ≠ some "HEAD"
  base : ∀ s host, seen[2]? = some s → recordedHost seen = some host →
    s.branches host = s.commitOf s.worktreeHead ∧
      ∀ base, s.branches host = some base → ∀ c ∈ base.ancestors, c.data.author = .other
  count : ∀ s temp base, seen[commandsBeforeCount options]? = some s →
    recordedBranch seen = some temp → recordedBase seen = some base →
    s.outcome = .done ∧ s.branches temp = s.commitOf s.worktreeHead ∧
      ∀ tip, s.branches temp = some tip → ∀ c ∈ Commit.revList base tip, c.data.author = .agent

/-! ### Merging -/

theorem mem_mergeOf_left (ours theirs : Commit CommitInfo) :
    ours ∈ (GitRepo.mergeOf ours theirs).ancestors := by
  rw [GitRepo.mergeOf]
  split
  · exact Commit.mem_ancestors_self ours
  · split
    · assumption
    · exact Commit.mem_ancestors_mk.mpr
        (Or.inr ⟨ours, List.mem_cons_self, Commit.mem_ancestors_self ours⟩)

theorem mem_mergeOf_right (ours theirs : Commit CommitInfo) :
    theirs ∈ (GitRepo.mergeOf ours theirs).ancestors := by
  rw [GitRepo.mergeOf]
  split
  · assumption
  · split
    · exact Commit.mem_ancestors_self theirs
    · exact Commit.mem_ancestors_mk.mpr (Or.inr ⟨theirs,
        List.mem_cons_of_mem _ List.mem_cons_self, Commit.mem_ancestors_self theirs⟩)

theorem cases_mergeOf {ours theirs c : Commit CommitInfo}
    (h : c ∈ (GitRepo.mergeOf ours theirs).ancestors) :
    c.data.author = .merge ∨ c ∈ ours.ancestors ∨ c ∈ theirs.ancestors := by
  rw [GitRepo.mergeOf] at h
  split at h
  · exact Or.inr (Or.inl h)
  · split at h
    · exact Or.inr (Or.inr h)
    · rcases Commit.mem_ancestors_mk.mp h with rfl | ⟨p, hp, hc⟩
      · exact Or.inl rfl
      · rcases List.mem_cons.mp hp with rfl | hp
        · exact Or.inr (Or.inl hc)
        · rw [List.mem_singleton] at hp
          subst hp
          exact Or.inr (Or.inr hc)

/-! ### Steps -/

theorem SafeStep.refl (host temp : String) {s t : GitRepo} (hbranches : t.branches = s.branches)
    (hhead : t.hostHead = s.hostHead) : SafeStep host temp s t where
  deletes := by
    intro tip htip hnone
    rw [hbranches, htip] at hnone
    cases hnone
  moves := fun name hne => absurd (by rw [hbranches]) hne
  advances := fun old hold => ⟨old, by rw [hbranches, hold], Commit.mem_ancestors_self old⟩
  hostHead := hhead

theorem safeStep_merge {host : String} (temp : String) {s t : GitRepo}
    {tip theirs : Commit CommitInfo} (htip : s.branches host = some tip)
    (hhead : t.hostHead = s.hostHead)
    (hbranches : t.branches = Function.update s.branches host
      (some (GitRepo.mergeOf tip theirs))) : SafeStep host temp s t where
  deletes := by
    intro old hold hnone
    rw [hbranches] at hnone
    by_cases heq : temp = host
    · rw [heq, Function.update_self] at hnone
      cases hnone
    · rw [Function.update_of_ne heq, hold] at hnone
      cases hnone
  moves := by
    intro name hne
    by_contra hnot
    refine hne ?_
    rw [hbranches, Function.update_of_ne fun heq => hnot (Or.inl heq)]
  advances := by
    intro old hold
    obtain rfl := Option.some.inj (htip.symm.trans hold)
    refine ⟨GitRepo.mergeOf tip theirs, ?_, mem_mergeOf_left tip theirs⟩
    rw [hbranches, Function.update_self]
  hostHead := hhead

theorem safeStep_delete {host temp : String} {s t : GitRepo} {hostTip : Commit CommitInfo}
    (hne : host ≠ temp) (hhost : s.branches host = some hostTip)
    (hcontained : ∀ tip, s.branches temp = some tip → tip ∈ hostTip.ancestors)
    (hhead : t.hostHead = s.hostHead)
    (hbranches : t.branches = Function.update s.branches temp none) :
    SafeStep host temp s t where
  deletes := fun tip htip _ => ⟨hostTip, hhost, hcontained tip htip⟩
  moves := by
    intro name hmoved
    by_cases heq : name = temp
    · rw [heq, hbranches, Function.update_self]
      exact Or.inr ⟨rfl, rfl⟩
    · refine absurd ?_ hmoved
      rw [hbranches, Function.update_of_ne heq]
  advances := by
    intro old hold
    refine ⟨old, ?_, Commit.mem_ancestors_self old⟩
    rw [hbranches, Function.update_of_ne hne, hold]
  hostHead := hhead

/-! ### What the call has found -/

variable {options : SandboxLifecycleOptions}

theorem getElem?_append_of_some {seen : Seen} {s u : GitRepo} {n : Nat}
    (h : seen[n]? = some u) : (seen ++ [s])[n]? = some u := by
  rw [List.getElem?_append_left (List.getElem?_eq_some_iff.mp h).1, h]

theorem bind_append_of_some {α : Type} {seen : Seen} {f : GitRepo → Option α} {a : α} {n : Nat}
    (s : GitRepo) (h : seen[n]?.bind f = some a) : (seen ++ [s])[n]?.bind f = some a := by
  obtain ⟨u, hu, ha⟩ := Option.bind_eq_some_iff.mp h
  rw [getElem?_append_of_some hu]
  exact ha

theorem FindsInPlace.of_append {seen : Seen} {s : GitRepo}
    (h : FindsInPlace options (seen ++ [s])) : FindsInPlace options seen where
  host := fun u hu => h.host u (getElem?_append_of_some hu)
  branch := fun hbranch => h.branch (bind_append_of_some s hbranch)
  base := fun u host hu hhost =>
    h.base u host (getElem?_append_of_some hu) (bind_append_of_some s hhost)
  count := fun u temp base hu htemp hbase => h.count u temp base (getElem?_append_of_some hu)
    (bind_append_of_some s htemp) (bind_append_of_some s hbase)

/-! ### The rules of the call -/

/-- Others leave the host checkout alone, and each step is safe if the call found all in place. -/
def tempRules (options : SandboxLifecycleOptions) : Rules (GitRepo × Seen) where
  inv := fun _ => True
  rely := LeavesHost options
  allowed := fun _ _ _ => True
  guar := fun _ s t => FindsInPlace options s.2 → ∀ host temp, recordedHost s.2 = some host →
    recordedBranch s.2 = some temp → SafeStep host temp s.1 t.1

/-- The call keeps the rules and ends in `Q` or throws. -/
abbrev Calls {α : Type} (options : SandboxLifecycleOptions) (Q : α → GitRepo × Seen → Prop)
    (p : LifecycleProg α) (s : GitRepo × Seen) : Prop :=
  p.SatTracked (tempRules options) noteSeen Q (fun _ _ => True) s

variable {α : Type} {Q : α → GitRepo × Seen → Prop} {s : GitRepo × Seen}

/-- The state after a command that has left the repository as `t`. -/
def afterCommand (s : GitRepo × Seen) (t : GitRepo) : GitRepo × Seen :=
  ({ t with outages := s.1.outages.tail }, s.2 ++ [s.1])

theorem calls_gitAsk {answer : GitRepo → Option α}
    {Q : Option α → GitRepo × Seen → Prop}
    (h : ∀ t, LeavesHost options s t →
      Q (if t.1.outcome = .done then answer t.1 else none) (afterCommand t t.1)) :
    Calls options Q (gitAsk answer) s := by
  refine Prog.SatTracked.act fun t hrely _ _ => ⟨fun _ host temp _ _ => ?_, trivial, ?_⟩
  · exact SafeStep.refl host temp rfl rfl
  · exact Prog.SatTracked.ret (h t hrely)

theorem calls_gitChange {change : GitRepo → Option GitRepo} {Q : Bool → GitRepo × Seen → Prop}
    (hsafe : ∀ t u, LeavesHost options s t → change t.1 = some u → FindsInPlace options t.2 →
      ∀ host temp, recordedHost t.2 = some host → recordedBranch t.2 = some temp →
      SafeStep host temp t.1 u)
    (hdone : ∀ t u, LeavesHost options s t → change t.1 = some u → Q true (afterCommand t u))
    (hchanged : ∀ t u, LeavesHost options s t → change t.1 = some u →
      Q false (afterCommand t u))
    (hfailed : ∀ t, LeavesHost options s t → Q false (afterCommand t t.1)) :
    Calls options Q (gitChange change) s := by
  refine Prog.SatTracked.act fun t hrely _ _ => ⟨fun hfinds host temp hhost htemp => ?_,
    trivial, ?_⟩
  · dsimp only
    split
    · exact SafeStep.refl host temp rfl rfl
    · cases hchange : change t.1 with
      | none => exact SafeStep.refl host temp rfl rfl
      | some u =>
        have hstep := hsafe t u hrely hchange hfinds host temp hhost htemp
        exact ⟨hstep.deletes, hstep.moves, hstep.advances, hstep.hostHead⟩
  · refine Prog.SatTracked.ret ?_
    dsimp only
    cases hchange : change t.1 with
    | none =>
      have hstay : (if t.1.outcome = .refused then t.1 else (none : Option GitRepo).getD t.1) =
          t.1 := by simp
      rw [hstay]
      exact hfailed t hrely
    | some u =>
      by_cases hrefused : t.1.outcome = .refused
      · rw [if_pos hrefused, hrefused]
        exact hfailed t hrely
      · rw [if_neg hrefused]
        by_cases hok : t.1.outcome = .done
        · rw [hok]
          exact hdone t u hrely hchange
        · have hanswer : ((some u).isSome && decide (t.1.outcome = .done)) = false := by
            simp [hok]
          rw [hanswer]
          exact hchanged t u hrely hchange

/-! ### The phases -/

/-- The host checkout is on the branch, at the commit. -/
structure HostAt (host : String) (tip : Commit CommitInfo) (s : GitRepo) : Prop where
  head : s.hostHead = .branch host
  tip : s.branches host = some tip

theorem HostAt.leaves {host : String} {tip : Commit CommitInfo} {s t : GitRepo × Seen}
    (h : HostAt host tip s.1) (hst : LeavesHost options s t) : HostAt host tip t.1 where
  head := hst.hostHead.trans h.head
  tip := (hst.hostBranch host h.head).trans h.tip

/-- What the call has recorded after `n` commands. -/
structure Recorded (host temp : String) (base : Commit CommitInfo) (n : Nat) (seen : Seen) :
    Prop where
  host : recordedHost seen = some host
  temp : recordedBranch seen = some temp
  base : recordedBase seen = some base
  length : seen.length = n

theorem Recorded.append {host temp : String} {base : Commit CommitInfo} {n : Nat} {seen : Seen}
    (h : Recorded host temp base n seen) (s : GitRepo) :
    Recorded host temp base (n + 1) (seen ++ [s]) where
  host := bind_append_of_some s h.host
  temp := bind_append_of_some s h.temp
  base := bind_append_of_some s h.base
  length := by rw [List.length_append, h.length]; rfl

/-- Nothing of this call is in the history of the base. -/
def IsOld (base : Commit CommitInfo) : Prop :=
  ∀ c ∈ base.ancestors, c.data.author = .other

/-- Before the count: the host branch is at the base. -/
structure Working (options : SandboxLifecycleOptions) (host temp : String)
    (base : Commit CommitInfo) (n : Nat) (s : GitRepo × Seen) : Prop where
  recorded : Recorded host temp base n s.2
  finds : FindsInPlace options s.2 → HostAt host base s.1 ∧ IsOld base

/-- After the count: the temp branch is at the tip that was counted, and `hasNew` says whether
it has new commits. -/
structure Counted (options : SandboxLifecycleOptions) (host temp : String)
    (base : Commit CommitInfo) (hasNew : Bool) (s : GitRepo × Seen) : Prop where
  recorded : ∃ n, commandsBeforeCount options < n ∧ Recorded host temp base n s.2
  finds : FindsInPlace options s.2 → HostAt host base s.1 ∧ IsOld base ∧
    ∀ tip, s.1.branches temp = some tip →
      (hasNew = false → tip ∈ base.ancestors) ∧
      ∀ c ∈ Commit.revList base tip, c.data.author = .agent

/-- After the merge: the host branch contains the temp branch, and all that it has gained is of
this call. -/
structure Merged (options : SandboxLifecycleOptions) (host temp : String)
    (base : Commit CommitInfo) (s : GitRepo × Seen) : Prop where
  recorded : ∃ n, commandsBeforeCount options < n ∧ Recorded host temp base n s.2
  finds : FindsInPlace options s.2 → ∃ hostTip, HostAt host hostTip s.1 ∧
    (∀ tip, s.1.branches temp = some tip → tip ∈ hostTip.ancestors) ∧
    ∀ c ∈ hostTip.ancestors, c ∉ base.ancestors ↔ c.data.author ≠ .other

theorem Working.leaves {host temp : String} {base : Commit CommitInfo} {n : Nat}
    {s t : GitRepo × Seen} (h : Working options host temp base n s)
    (hst : LeavesHost options s t) : Working options host temp base n t where
  recorded := hst.seen ▸ h.recorded
  finds := by
    intro hfinds
    rw [hst.seen] at hfinds
    obtain ⟨hhost, hold⟩ := h.finds hfinds
    exact ⟨hhost.leaves hst, hold⟩

theorem Counted.leaves {host temp : String} {base : Commit CommitInfo} {hasNew : Bool}
    {s t : GitRepo × Seen} (h : Counted options host temp base hasNew s)
    (hst : LeavesHost options s t) : Counted options host temp base hasNew t where
  recorded := hst.seen ▸ h.recorded
  finds := by
    intro hfinds
    rw [hst.seen] at hfinds
    obtain ⟨hhost, hold, htip⟩ := h.finds hfinds
    obtain ⟨n, hn, hrecorded⟩ := h.recorded
    rw [hst.tempBranch (hrecorded.length.symm ▸ hn) temp hrecorded.temp]
    exact ⟨hhost.leaves hst, hold, htip⟩

theorem Merged.leaves {host temp : String} {base : Commit CommitInfo} {s t : GitRepo × Seen}
    (h : Merged options host temp base s) (hst : LeavesHost options s t) :
    Merged options host temp base t where
  recorded := hst.seen ▸ h.recorded
  finds := by
    intro hfinds
    rw [hst.seen] at hfinds
    obtain ⟨hostTip, hhost, htip, hnew⟩ := h.finds hfinds
    obtain ⟨n, hn, hrecorded⟩ := h.recorded
    rw [hst.tempBranch (hrecorded.length.symm ▸ hn) temp hrecorded.temp]
    exact ⟨hostTip, hhost.leaves hst, htip, hnew⟩

theorem Counted.after {host temp : String} {base : Commit CommitInfo} {hasNew : Bool}
    {s : GitRepo × Seen} (h : Counted options host temp base hasNew s) {t : GitRepo}
    (hbranches : t.branches = s.1.branches) (hhead : t.hostHead = s.1.hostHead) :
    Counted options host temp base hasNew (afterCommand s t) where
  recorded := by
    obtain ⟨n, hn, hrecorded⟩ := h.recorded
    exact ⟨n + 1, Nat.lt_succ_of_lt hn, hrecorded.append s.1⟩
  finds := by
    intro hfinds
    obtain ⟨hhost, hold, htip⟩ := h.finds hfinds.of_append
    refine ⟨⟨?_, ?_⟩, hold, ?_⟩
    · exact hhead.trans hhost.head
    · show t.branches host = some base
      rw [hbranches, hhost.tip]
    · show ∀ tip, t.branches temp = some tip → _
      rw [hbranches]
      exact htip

theorem Counted.merged {host temp : String} {base : Commit CommitInfo} {s : GitRepo × Seen}
    (h : Counted options host temp base false s) : Merged options host temp base s where
  recorded := h.recorded
  finds := by
    intro hfinds
    obtain ⟨hhost, hold, htip⟩ := h.finds hfinds
    refine ⟨base, hhost, fun tip htemp => (htip tip htemp).1 rfl, fun c hc => ?_⟩
    exact ⟨fun hnot => absurd hc hnot, fun hauthor => absurd (hold c hc) hauthor⟩

theorem Merged.after {host temp : String} {base : Commit CommitInfo} {s : GitRepo × Seen}
    (h : Merged options host temp base s) {t : GitRepo}
    (htemp : t.branches temp = s.1.branches temp ∨ t.branches temp = none)
    (hhost : FindsInPlace options s.2 → t.branches host = s.1.branches host)
    (hhead : t.hostHead = s.1.hostHead) :
    Merged options host temp base (afterCommand s t) where
  recorded := by
    obtain ⟨n, hn, hrecorded⟩ := h.recorded
    exact ⟨n + 1, Nat.lt_succ_of_lt hn, hrecorded.append s.1⟩
  finds := by
    intro hfinds
    obtain ⟨hostTip, hat, hcontained, hnew⟩ := h.finds hfinds.of_append
    refine ⟨hostTip, ⟨hhead.trans hat.head, ?_⟩, fun tip htip => ?_, hnew⟩
    · exact (hhost hfinds.of_append).trans hat.tip
    · have htip' : t.branches temp = some tip := htip
      rcases htemp with heq | hnone
      · exact hcontained tip (heq.symm.trans htip')
      · rw [hnone] at htip'
        cases htip'

/-! ### The commands after the work -/

variable {host temp : String} {base : Commit CommitInfo}

theorem getElem?_length {seen : Seen} {s : GitRepo} {n : Nat} (h : seen.length = n) :
    (seen ++ [s])[n]? = some s := by
  rw [← h]
  simp

theorem calls_hasNewCommits
    (hs : Working options host temp base (commandsBeforeCount options) s) :
    Calls options (Counted options host temp base) (hasNewCommits base) s := by
  rw [hasNewCommits]
  refine Prog.SatTracked.bind (Q := fun commits =>
    Counted options host temp base (commits.any (!·.isEmpty))) (calls_gitAsk ?_)
    fun _ _ h => Prog.SatTracked.ret h
  intro t hrely
  have ht := hs.leaves hrely
  refine ⟨⟨_, Nat.lt_succ_self _, ht.recorded.append t.1⟩, fun hfinds => ?_⟩
  obtain ⟨hhost, hold⟩ := ht.finds hfinds.of_append
  obtain ⟨hdone, htemp, hagent⟩ := hfinds.count t.1 temp base
    (getElem?_length ht.recorded.length) (ht.recorded.append t.1).temp
    (ht.recorded.append t.1).base
  refine ⟨⟨hhost.head, hhost.tip⟩, hold, fun tip htip => ⟨fun hnone => ?_, hagent tip htip⟩⟩
  -- The worktree is at the tip, so the range that was counted is that of the temp branch.
  have htip' : t.1.commitOf t.1.worktreeHead = some tip := htemp.symm.trans htip
  rw [if_pos hdone, htip', GitRepo.revList, Option.any_some] at hnone
  refine Commit.mem_ancestors_of_revList_eq_nil (List.isEmpty_iff.mp ?_)
  simpa using hnone

theorem detachSandbox_frame {s t : GitRepo} (h : s.detachSandbox = some t) :
    t.branches = s.branches ∧ t.hostHead = s.hostHead := by
  rw [GitRepo.detachSandbox] at h
  split at h
  · cases h
    exact ⟨rfl, rfl⟩
  · obtain ⟨commit, -, rfl⟩ := Option.map_eq_some_iff.mp h
    exact ⟨rfl, rfl⟩

theorem calls_detachSandbox {hasNew : Bool} (hs : Counted options host temp base hasNew s) :
    Calls options (fun _ => Counted options host temp base hasNew)
      (gitChange GitRepo.detachSandbox) s := by
  have hafter : ∀ t u, LeavesHost options s t → t.1.detachSandbox = some u →
      Counted options host temp base hasNew (afterCommand t u) := by
    intro t u hrely hchange
    obtain ⟨hbranches, hhead⟩ := detachSandbox_frame hchange
    exact (hs.leaves hrely).after hbranches hhead
  refine calls_gitChange ?_ hafter hafter fun t hrely => (hs.leaves hrely).after rfl rfl
  intro t u _ hchange _ host temp _ _
  obtain ⟨hbranches, hhead⟩ := detachSandbox_frame hchange
  exact SafeStep.refl host temp hbranches hhead

theorem mergeHost_eq {s t : GitRepo} (hat : HostAt host base s) (hname : temp ≠ "HEAD")
    (h : s.mergeHost temp = some t) :
    ∃ tip, s.branches temp = some tip ∧
      t = { s with
        branches := Function.update s.branches host (some (GitRepo.mergeOf base tip)) } := by
  have hours : s.commitOf s.hostHead = some base := by
    rw [hat.head, GitRepo.commitOf, hat.tip]
  rw [GitRepo.mergeHost, hours, GitRepo.resolve, if_neg hname] at h
  cases htip : s.branches temp with
  | none =>
    rw [htip] at h
    cases h
  | some tip =>
    rw [htip] at h
    refine ⟨tip, rfl, ?_⟩
    rw [← Option.some.inj h, GitRepo.moveHost, hat.head]

theorem calls_mergeToHost (hs : Counted options host temp base true s) :
    Calls options (fun _ => Merged options host temp base) (mergeToHost temp host) s := by
  have hname : ∀ t, LeavesHost options s t → FindsInPlace options t.2 → temp ≠ "HEAD" := by
    rintro t hrely hfinds rfl
    obtain ⟨n, -, hrecorded⟩ := (hs.leaves hrely).recorded
    exact hfinds.branch hrecorded.temp
  rw [mergeToHost]
  refine Prog.SatTracked.bind (Q := fun merged t => merged = true →
    Merged options host temp base t) (calls_gitChange ?_ ?_ ?_ ?_) ?_
  · intro t u hrely hchange hfinds host' temp' hhost' htemp'
    have ht := hs.leaves hrely
    obtain ⟨n, -, hrecorded⟩ := ht.recorded
    obtain ⟨hat, -, -⟩ := ht.finds hfinds
    obtain ⟨tip, -, rfl⟩ := mergeHost_eq hat (hname t hrely hfinds) hchange
    obtain rfl := Option.some.inj (hrecorded.host.symm.trans hhost')
    exact safeStep_merge temp' hat.tip rfl rfl
  · intro t u hrely hchange _
    have ht := hs.leaves hrely
    obtain ⟨n, hn, hrecorded⟩ := ht.recorded
    refine ⟨⟨n + 1, Nat.lt_succ_of_lt hn, hrecorded.append t.1⟩, fun hfinds => ?_⟩
    obtain ⟨hat, hold, htips⟩ := ht.finds hfinds.of_append
    obtain ⟨tip, htip, rfl⟩ := mergeHost_eq hat (hname t hrely hfinds.of_append) hchange
    obtain ⟨-, hagent⟩ := htips tip htip
    refine ⟨GitRepo.mergeOf base tip, ⟨hat.head, Function.update_self ..⟩, ?_, ?_⟩
    · intro tip' htip'
      have hupdated : Function.update t.1.branches host
          (some (GitRepo.mergeOf base tip)) temp = some tip' := htip'
      by_cases heq : temp = host
      · rw [heq, Function.update_self] at hupdated
        rw [Option.some.inj hupdated]
        exact Commit.mem_ancestors_self tip'
      · rw [Function.update_of_ne heq, htip] at hupdated
        rw [← Option.some.inj hupdated]
        exact mem_mergeOf_right base tip
    · intro c hc
      constructor
      · intro hnew
        rcases cases_mergeOf hc with hmerge | hbase | htheirs
        · rw [hmerge]
          decide
        · exact absurd hbase hnew
        · rw [hagent c (Commit.mem_revList.mpr ⟨htheirs, hnew⟩)]
          decide
      · exact fun hauthor hbase => hauthor (hold c hbase)
  · intro t u _ _ hfalse
    cases hfalse
  · intro t _ hfalse
    cases hfalse
  · intro merged t ht
    split
    · rename_i hmerged
      exact Prog.SatTracked.ret (ht hmerged)
    · exact Prog.SatTracked.raise trivial

theorem deleteBranch_eq {s t : GitRepo} (h : s.deleteBranch temp = some t) :
    s.hostHead ≠ .branch temp ∧
      t = { s with branches := Function.update s.branches temp none } := by
  rw [GitRepo.deleteBranch] at h
  split at h
  · cases h
  · rename_i hfree
    refine ⟨fun hhead => hfree ?_, (Option.some.inj h).symm⟩
    simp [GitRepo.isCheckedOut, hhead]

theorem calls_deleteBranch (hs : Merged options host temp base s) :
    Calls options (fun _ => Merged options host temp base)
      (gitChange (GitRepo.deleteBranch · temp)) s := by
  have hother : ∀ t u, LeavesHost options s t → t.1.deleteBranch temp = some u →
      FindsInPlace options t.2 → host ≠ temp := by
    rintro t u hrely hchange hfinds rfl
    obtain ⟨hostTip, hat, -⟩ := (hs.leaves hrely).finds hfinds
    exact (deleteBranch_eq hchange).1 hat.head
  have hafter : ∀ t u, LeavesHost options s t → t.1.deleteBranch temp = some u →
      Merged options host temp base (afterCommand t u) := by
    intro t u hrely hchange
    obtain ⟨-, rfl⟩ := deleteBranch_eq hchange
    refine (hs.leaves hrely).after (Or.inr (Function.update_self ..)) (fun hfinds => ?_) rfl
    exact Function.update_of_ne (hother t _ hrely hchange hfinds) _ _
  refine calls_gitChange ?_ hafter hafter fun t hrely =>
    (hs.leaves hrely).after (Or.inl rfl) (fun _ => rfl) rfl
  intro t u hrely hchange hfinds host' temp' hhost' htemp'
  have ht := hs.leaves hrely
  obtain ⟨n, -, hrecorded⟩ := ht.recorded
  obtain rfl := Option.some.inj (hrecorded.host.symm.trans hhost')
  obtain rfl := Option.some.inj (hrecorded.temp.symm.trans htemp')
  obtain ⟨hostTip, hat, hcontained, -⟩ := ht.finds hfinds
  obtain ⟨-, rfl⟩ := deleteBranch_eq hchange
  exact safeStep_delete (hother t _ hrely hchange hfinds) hat.tip hcontained rfl rfl

def LastDone (seen : Seen) : Prop :=
  ∀ s, seen.getLast? = some s → s.outcome = .done

/-- The commits are those that the host branch has gained, and they are of this call. -/
def Collected (options : SandboxLifecycleOptions) (host : String)
    (commits : List (Commit CommitInfo)) (s : GitRepo × Seen) : Prop :=
  FindsInPlace options s.2 → LastDone s.2 → ∃ tip, HostAt host tip s.1 ∧
    ∀ c, c ∈ commits ↔ c ∈ tip.ancestors ∧ c.data.author ≠ .other

theorem calls_collectCommits (hs : Merged options host temp base s) :
    Calls options (fun commits t => recordedHost t.2 = some host ∧
        Collected options host commits t)
      (collectCommits base fun s => s.commitOf s.hostHead) s := by
  rw [collectCommits]
  refine Prog.SatTracked.bind (Q := fun commits t => recordedHost t.2 = some host ∧
    Collected options host (commits.getD []) t) (calls_gitAsk ?_)
    fun _ _ h => Prog.SatTracked.ret h
  intro t hrely
  have ht := hs.leaves hrely
  obtain ⟨n, -, hrecorded⟩ := ht.recorded
  refine ⟨(hrecorded.append t.1).host, fun hfinds hlast => ?_⟩
  obtain ⟨hostTip, hat, -, hnew⟩ := ht.finds hfinds.of_append
  refine ⟨hostTip, ⟨hat.head, hat.tip⟩, fun c => ?_⟩
  have hdone : t.1.outcome = .done := hlast t.1 (by simp [afterCommand])
  have htip : t.1.commitOf t.1.hostHead = some hostTip := by
    rw [hat.head, GitRepo.commitOf, hat.tip]
  rw [if_pos hdone, htip, GitRepo.revList, Option.getD_some, Commit.mem_revList]
  exact and_congr_right fun hc => hnew c hc

theorem calls_finishTempBranch
    (hs : Working options host temp base (commandsBeforeCount options) s) :
    Calls options (fun commits t => recordedHost t.2 = some host ∧
        Collected options host commits t) (finishTempBranch base temp host) s := by
  rw [finishTempBranch]
  refine (calls_hasNewCommits hs).bind fun hasNew t ht => ?_
  refine (calls_detachSandbox ht).bind fun detached t' ht' => ?_
  split
  · exact Prog.SatTracked.raise trivial
  · refine Prog.SatTracked.bind (Q := fun _ => Merged options host temp base)
      (Prog.SatTracked.when ?_ ?_) fun _ t'' ht'' => ?_
    · rintro rfl
      exact calls_mergeToHost ht'
    · rintro rfl
      exact ht'.merged
    · exact (calls_deleteBranch ht'').bind fun _ _ hend => calls_collectCommits hend

/-! ### The commands before the work -/

theorem some_of_ite_done {outcome : GitOutcome} {answer : Option α} {a : α}
    (h : (if outcome = .done then answer else none) = some a) : answer = some a := by
  split at h
  · exact h
  · cases h

/-- The first command records the host branch, the second one the branch of the sandbox. -/
structure Started (options : SandboxLifecycleOptions) (host : String) (n : Nat)
    (s : GitRepo × Seen) : Prop where
  recorded : recordedHost s.2 = some host
  length : s.2.length = n
  finds : FindsInPlace options s.2 → s.1.hostHead = .branch host

theorem Started.leaves {n : Nat} {s t : GitRepo × Seen} (h : Started options host n s)
    (hst : LeavesHost options s t) : Started options host n t where
  recorded := hst.seen ▸ h.recorded
  length := hst.seen ▸ h.length
  finds := by
    intro hfinds
    rw [hst.seen] at hfinds
    exact hst.hostHead.trans (h.finds hfinds)

theorem Started.after {n : Nat} {s : GitRepo × Seen} (h : Started options host n s) :
    Started options host (n + 1) (afterCommand s s.1) where
  recorded := bind_append_of_some s.1 h.recorded
  length := by
    show (s.2 ++ [s.1]).length = _
    rw [List.length_append, h.length]
    rfl
  finds := fun hfinds => h.finds hfinds.of_append

theorem calls_recordHostBranch (htemp : options.branch.getD "" = "") (hs : s.2 = []) :
    Calls options (fun name t => ∃ host, name = some host ∧ Started options host 1 t)
      (recordHostBranch options) s := by
  rw [recordHostBranch, if_pos htemp]
  refine Prog.SatTracked.bind (Q := fun name t => ∀ host, name = some host →
    Started options host 1 t) (calls_gitAsk fun t hrely host hhost => ?_) ?_
  · have hseen : (afterCommand t t.1).2 = [t.1] := by
      show t.2 ++ [t.1] = _
      rw [hrely.seen, hs]
      rfl
    have hname := some_of_ite_done hhost
    refine ⟨?_, ?_, fun hfinds => ?_⟩
    · rw [hseen]
      exact hname
    · rw [hseen]
      rfl
    · rw [hseen] at hfinds
      obtain ⟨name, hbranch⟩ := hfinds.host t.1 rfl
      rw [hbranch, GitRepo.abbrevRef] at hname
      obtain ⟨-, -, rfl⟩ := Option.map_eq_some_iff.mp hname
      exact hbranch
  · intro name t ht
    cases name with
    | none => exact Prog.SatTracked.raise trivial
    | some host => exact Prog.SatTracked.ret ⟨host, rfl, ht host rfl⟩

theorem calls_resolveBranch (hs : Started options host 1 s) :
    Calls options (fun temp t => recordedBranch t.2 = some temp ∧ Started options host 2 t)
      resolveBranch s := by
  rw [resolveBranch]
  refine Prog.SatTracked.bind (Q := fun name t => ∀ temp, name = some temp →
    recordedBranch t.2 = some temp ∧ Started options host 2 t)
    (calls_gitAsk fun t hrely temp htemp => ?_) ?_
  · have ht := hs.leaves hrely
    refine ⟨?_, ht.after⟩
    show (t.2 ++ [t.1])[1]?.bind GitRepo.sandboxAbbrevRef = some temp
    rw [getElem?_length ht.length]
    exact some_of_ite_done htemp
  · intro name t ht
    cases name with
    | none => exact Prog.SatTracked.raise trivial
    | some temp => exact Prog.SatTracked.ret (ht temp rfl)

theorem calls_recordBaseHead (htemp : recordedBranch s.2 = some temp)
    (hs : Started options host 2 s) :
    Calls options (fun base => Working options host temp base 3) recordBaseHead s := by
  rw [recordBaseHead]
  refine Prog.SatTracked.bind (Q := fun name t => ∀ base, name = some base →
    Working options host temp base 3 t) (calls_gitAsk fun t hrely base hbase => ?_) ?_
  · have ht := hs.leaves hrely
    have hcommit := some_of_ite_done hbase
    refine ⟨⟨ht.after.recorded, bind_append_of_some t.1 (hrely.seen ▸ htemp), ?_,
      ht.after.length⟩, fun hfinds => ?_⟩
    · show (t.2 ++ [t.1])[2]?.bind (fun s => s.commitOf s.worktreeHead) = some base
      rw [getElem?_length ht.length]
      exact hcommit
    · obtain ⟨htip, hold⟩ := hfinds.base t.1 host (getElem?_length ht.length) ht.after.recorded
      rw [hcommit] at htip
      exact ⟨⟨ht.finds hfinds.of_append, htip⟩, hold base htip⟩
  · intro name t ht
    cases name with
    | none => exact Prog.SatTracked.raise trivial
    | some base => exact Prog.SatTracked.ret (ht base rfl)

theorem calls_applyToHost (hs : Working options host temp base 3 s) :
    Calls options (fun _ => Working options host temp base (commandsBeforeCount options))
      (applyToHost options.applyToHost) s := by
  rw [commandsBeforeCount]
  cases options.applyToHost with
  | none => exact Prog.SatTracked.ret hs
  | some ending =>
    refine Prog.SatTracked.bind (Q := fun _ => Working options host temp base 4)
      (calls_gitAsk fun t hrely => ?_) fun _ t ht => ?_
    · have ht := hs.leaves hrely
      refine ⟨ht.recorded.append t.1, fun hfinds => ?_⟩
      obtain ⟨hat, hold⟩ := ht.finds hfinds.of_append
      exact ⟨⟨hat.head, hat.tip⟩, hold⟩
    · cases ending with
      | ok _ => exact Prog.SatTracked.ret ht
      | error message => exact Prog.SatTracked.raise trivial

def Returned (options : SandboxLifecycleOptions) (result : SandboxLifecycleResult α)
    (s : GitRepo × Seen) : Prop :=
  recordedHost s.2 = some result.branch ∧ Collected options result.branch result.commits s

theorem calls_withSandboxLifecycle (htemp : options.branch.getD "" = "")
    (work : Except String α) (hs : s.2 = []) :
    Calls options (Returned options) (withSandboxLifecycle options work) s := by
  rw [withSandboxLifecycle]
  refine (calls_recordHostBranch htemp hs).bind ?_
  rintro _ t ⟨host, rfl, ht⟩
  refine (calls_resolveBranch ht).bind ?_
  rintro temp t ⟨hbranch, ht⟩
  refine (calls_recordBaseHead hbranch ht).bind fun base t ht => ?_
  refine Prog.SatTracked.bind (Q := fun _ => Working options host temp base 3) ?_
    fun result t ht => ?_
  · cases work with
    | ok result => exact Prog.SatTracked.ret ht
    | error message => exact Prog.SatTracked.raise trivial
  · refine (calls_applyToHost ht).bind fun _ t ht => ?_
    exact (calls_finishTempBranch ht).bind fun commits t hend => Prog.SatTracked.ret hend

/-! ### Every run -/

/-- The call, with the states in which it takes its steps. -/
def lifecycleCall (options : SandboxLifecycleOptions) (work : Except String α) :
    Prog (GitRepo × Seen) String (SandboxLifecycleResult α) :=
  (withSandboxLifecycle options work).tracked noteSeen

def sampleBase : Commit CommitInfo := .mk { author := .other, message := "start" } []

def sampleWork : Commit CommitInfo := .mk { author := .agent, message := "work" } [sampleBase]

/-- The host is on `main`, and the worktree on a new temp branch. -/
def sampleRepo : GitRepo where
  branches := fun name =>
    if name = "main" then some sampleBase
    else if name = "archloop/1" then some sampleBase
    else none
  hostHead := .branch "main"
  worktreeHead := .branch "archloop/1"

def sampleCommitted (s : GitRepo) : GitRepo :=
  { s with branches := Function.update s.branches "archloop/1" (some sampleWork) }

/-- The agent commits on the temp branch and then checks out the commit that it started from. -/
def sampleLeft (s : GitRepo) : GitRepo :=
  { sampleCommitted s with worktreeHead := .detached sampleBase }

def sampleStarted :
    Prog (GitRepo × Seen) String (SandboxLifecycleResult Unit) × (GitRepo × Seen) :=
  (lifecycleCall {} (.ok ())).stepsRun 3 (sampleRepo, [])

def sampleReturned :
    Prog (GitRepo × Seen) String (SandboxLifecycleResult Unit) × (GitRepo × Seen) :=
  sampleStarted.1.stepsRun 5 (sampleCommitted sampleStarted.2.1, sampleStarted.2.2)

theorem reaches_sampleReturned :
    Prog.Reaches (LeavesHost {}) (lifecycleCall {} (.ok ())) (sampleRepo, [])
      sampleReturned.1 sampleReturned.2 := by
  refine Prog.Reaches.stepsRun (Prog.Reaches.other (Prog.Reaches.start.stepsRun 3) ?_) 5
  refine ⟨rfl, rfl, fun host hhost => ?_, fun hlate => ?_⟩
  · cases hhost
    rfl
  · exact absurd hlate (by decide)

theorem findsInPlace_sample : FindsInPlace {} sampleReturned.2.2 where
  host := by
    intro s hs
    cases hs
    exact ⟨"main", rfl⟩
  branch := by decide
  base := by
    intro s host hs hhost
    cases hs
    cases hhost
    refine ⟨rfl, fun base hbase => ?_⟩
    cases hbase
    decide
  count := by
    intro s temp base hs htemp hbase
    cases hs
    cases htemp
    cases hbase
    refine ⟨rfl, rfl, fun tip htip => ?_⟩
    cases htip
    decide

end ArchLoop.Lifecycle
