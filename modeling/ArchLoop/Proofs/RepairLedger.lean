import ArchLoop.Lib.Rely
import ArchLoop.RepairLedger
import ArchLoop.Sample

/-!
# `ArchLoop.Proofs.RepairLedger`: how often an agent is called

The ledger is the only measure of the two loops: a turn appends a line before it calls the agent,
and the line counts from then on. `used_append` says so for a ledger without a torn line. From
it, `sat_conflictLoop` and `sat_verifyLoop` carry `Bounded` through every step of a run, and
`agentCalls_le_budget` through every sequence of runs.

A line behind a torn one does not count. `torn_ledger_uncounted` is a third call for a budget of
two.
-/

set_option autoImplicit false

namespace ArchLoop.RepairLedger

open ArchLoop.Lib ArchLoop.Lib.Prog ArchLoop.Lib.JsonText
open ArchLoop.JournalFile (trimmed readString)

/-! ### Lines of the ledger -/

structure IsNamed (attempt : HubLandingRepairAttempt) : Prop where
  taskId : trim attempt.taskId ≠ ""
  sourceOid : trim attempt.sourceOid ≠ ""
  fingerprint : trim attempt.fingerprint ≠ ""
  createdAt : trim attempt.createdAt ≠ ""

theorem get_toJson (attempt : HubLandingRepairAttempt) :
    attempt.toJson.get "type" = some (.string "repair_attempt") ∧
    attempt.toJson.get "kind" = some (.string attempt.kind.text) ∧
    attempt.toJson.get "taskId" = some (.string attempt.taskId) ∧
    attempt.toJson.get "sourceOid" = some (.string attempt.sourceOid) ∧
    attempt.toJson.get "fingerprint" = some (.string attempt.fingerprint) ∧
    attempt.toJson.get "createdAt" = some (.string attempt.createdAt) ∧
    attempt.toJson.get "attempt" = some (.ofInt attempt.attempt) := by
  have hget : ∀ name, attempt.toJson.get name = _ :=
    fun name => Value.get_ofFields (by simp) name
  simp only [hget]
  simp [List.lookup_cons]

theorem isLine_toJson (attempt : HubLandingRepairAttempt) : JsonLines.IsLine attempt.toJson where
  members := ⟨"type", _, _, 't', "ype".toList, rfl, by decide, by decide⟩
  printable := by
    have htext : ∀ {text : Option String} {value : Value},
        value ∈ text.map Value.string → Printable value := by
      intro text value hvalue
      obtain ⟨_, -, rfl⟩ := Option.map_eq_some_iff.mp hvalue
      trivial
    refine printable_ofFields fun field hfield value hvalue => ?_
    simp only [List.mem_cons, List.not_mem_nil, or_false] at hfield
    rcases hfield with rfl | rfl | rfl | rfl | rfl | rfl | rfl | rfl | rfl
    · cases hvalue
      trivial
    · cases hvalue
      trivial
    · cases hvalue
      trivial
    · cases hvalue
      trivial
    · cases hvalue
      trivial
    · cases hvalue
      exact isNumber_decimal attempt.attempt
    · cases hvalue
      trivial
    · exact htext hvalue
    · obtain ⟨n, -, rfl⟩ := Option.map_eq_some_iff.mp hvalue
      exact isNumber_decimal n

theorem kindOf_trim (kind : HubLandingRepairKind) :
    (trimmed kind.text).bind kindOf = some kind := by
  cases kind <;> decide

theorem readString_of_get {record : Value} {key text : String}
    (h : record.get key = some (.string text)) (hne : trim text ≠ "") :
    readString record key = some (trim text) := by
  rw [readString, h]
  exact if_neg hne

theorem parse_toJson {attempt : HubLandingRepairAttempt} (h : IsNamed attempt) :
    ∃ read, parseRepairAttempt attempt.toJson = some read ∧ read.kind = attempt.kind := by
  obtain ⟨htype, hkind, htask, hsource, hfingerprint, hcreated, hattempt⟩ := get_toJson attempt
  have hkindRead : (readString attempt.toJson "kind").bind kindOf = some attempt.kind := by
    rw [readString, hkind]
    exact kindOf_trim attempt.kind
  have hnumber : (attempt.toJson.get "attempt").bind Value.int? = some attempt.attempt := by
    rw [hattempt]
    exact int?_ofInt attempt.attempt
  unfold parseRepairAttempt
  rw [htype, hkindRead, readString_of_get htask h.taskId, readString_of_get hsource h.sourceOid,
    readString_of_get hfingerprint h.fingerprint, readString_of_get hcreated h.createdAt, hnumber]
  exact ⟨_, rfl, rfl⟩

/-- The ledger ends with a whole line, or whitespace behind it. -/
def IsWhole (ledger : List UInt8) : Prop :=
  ∀ c ∈ JsonLines.tailOf ledger, isWhitespace c = true

theorem used_append {ledger : List UInt8} (hwhole : IsWhole ledger)
    {attempt : HubLandingRepairAttempt} (h : IsNamed attempt) (kind : HubLandingRepairKind) :
    usedAttemptsForKind (ledger ++ JsonLines.lineOf attempt.toJson) kind =
      usedAttemptsForKind ledger kind + if attempt.kind = kind then 1 else 0 := by
  obtain ⟨read, hparse, hkind⟩ := parse_toJson h
  have hread : readHubLandingRepairAttempts (ledger ++ JsonLines.lineOf attempt.toJson) =
      readHubLandingRepairAttempts ledger ++ [read] := by
    have happend : readHubLandingRepairAttempts (ledger ++ JsonLines.lineOf attempt.toJson) =
        readHubLandingRepairAttempts ledger ++ (parseRepairAttempt attempt.toJson).toList :=
      JsonLines.read_append (isLine_toJson attempt) hwhole
    rw [happend, hparse]
    rfl
  rw [usedAttemptsForKind, hread, usedAttemptsForKind, countRepairAttempts, countRepairAttempts,
    List.filter_append, List.length_append]
  congr 1
  by_cases heq : attempt.kind = kind
  · rw [if_pos heq, List.filter_cons_of_pos (by simp [hkind, heq]), List.filter_nil,
      List.length_singleton]
  · rw [if_neg heq, List.filter_cons_of_neg (by simp [hkind, heq]), List.filter_nil,
      List.length_nil]

/-! ### What every step keeps -/

/-- The name of a ledger, `p` for short. -/
abbrev ledgerOf (taskId : TaskId) (sourceOid : Oid) : String :=
  resolveHubLandingRepairBudgetPath taskId sourceOid

/-- No agent was called more often than the budget allows. A ledger without a torn line has a line
for each call, and not more than the budget of them. -/
structure Bounded (s : RepairWorld) : Prop where
  calls : ∀ kind taskId sourceOid,
    s.agentCalls kind taskId sourceOid ≤ HUB_LANDING_REPAIR_BUDGET
  used : ∀ path, IsWhole (s.ledgers path) → ∀ kind,
    usedAttemptsForKind (s.ledgers path) kind ≤ HUB_LANDING_REPAIR_BUDGET
  counted : ∀ kind taskId sourceOid, IsWhole (s.ledgers (ledgerOf taskId sourceOid)) →
    s.agentCalls kind taskId sourceOid ≤
      usedAttemptsForKind (s.ledgers (ledgerOf taskId sourceOid)) kind

@[simp] theorem withLedger_self (s : RepairWorld) (path : String) (ledger : List UInt8) :
    (s.withLedger path ledger).ledgers path = ledger :=
  Function.update_self _ _ _

theorem withLedger_of_ne (s : RepairWorld) {path other : String} (h : other ≠ path)
    (ledger : List UInt8) : (s.withLedger path ledger).ledgers other = s.ledgers other :=
  Function.update_of_ne h _ _

theorem withLedger_withLedger (s : RepairWorld) (path : String) (a b : List UInt8) :
    (s.withLedger path a).withLedger path b = s.withLedger path b := by
  rw [RepairWorld.withLedger, RepairWorld.withLedger, Function.update_idem]
  rfl

theorem Bounded.torn {s : RepairWorld} (h : Bounded s) (path : String) {ledger : List UInt8}
    (htorn : ∃ c ∈ JsonLines.tailOf ledger, isWhitespace c = false) :
    Bounded (s.withLedger path ledger) := by
  have hnot : ¬ IsWhole ledger := by
    intro hwhole
    obtain ⟨c, hc, hspace⟩ := htorn
    rw [hwhole c hc] at hspace
    cases hspace
  refine ⟨h.calls, fun other hwhole kind => ?_, fun kind taskId sourceOid hwhole => ?_⟩
  · by_cases hother : other = path
    · subst hother
      rw [withLedger_self] at hwhole
      exact absurd hwhole hnot
    · rw [withLedger_of_ne s hother] at hwhole ⊢
      exact h.used other hwhole kind
  · by_cases hother : ledgerOf taskId sourceOid = path
    · rw [hother, withLedger_self] at hwhole
      exact absurd hwhole hnot
    · rw [withLedger_of_ne s hother] at hwhole ⊢
      exact h.counted kind taskId sourceOid hwhole

theorem Bounded.append {s : RepairWorld} (h : Bounded s) {path : String}
    {attempt : HubLandingRepairAttempt} (hnamed : IsNamed attempt)
    (hwhole : IsWhole (s.ledgers path))
    (hroom : usedAttemptsForKind (s.ledgers path) attempt.kind < HUB_LANDING_REPAIR_BUDGET) :
    Bounded (s.withLedger path (s.ledgers path ++ JsonLines.lineOf attempt.toJson)) := by
  have happend := used_append hwhole hnamed
  refine ⟨h.calls, fun other hother kind => ?_, fun kind taskId sourceOid hother => ?_⟩
  · by_cases hpath : other = path
    · subst hpath
      have hused := h.used other hwhole kind
      rw [withLedger_self, happend kind]
      split
      · rename_i heq
        subst heq
        omega
      · omega
    · rw [withLedger_of_ne s hpath] at hother ⊢
      exact h.used other hother kind
  · by_cases hpath : ledgerOf taskId sourceOid = path
    · have hcounted := h.counted kind taskId sourceOid (hpath ▸ hwhole)
      rw [hpath] at hcounted ⊢
      rw [withLedger_self, happend kind]
      change s.agentCalls kind taskId sourceOid ≤ _
      omega
    · rw [withLedger_of_ne s hpath] at hother ⊢
      exact h.counted kind taskId sourceOid hother

variable {E : Unit → RepairWorld → Prop}

theorem sat_writeOctets {s : RepairWorld} (h : Bounded s) {path : String}
    {attempt : HubLandingRepairAttempt} (hnamed : IsNamed attempt)
    (hwhole : IsWhole (s.ledgers path))
    (hroom : usedAttemptsForKind (s.ledgers path) attempt.kind < HUB_LANDING_REPAIR_BUDGET)
    {written rest : List UInt8} (hsplit : written ++ rest = JsonLines.lineOf attempt.toJson) :
    Sat (.alone Bounded fun _ _ => True)
      (fun _ t => t = s.withLedger path (s.ledgers path ++ JsonLines.lineOf attempt.toJson)) E
      (writeOctets path rest) (s.withLedger path (s.ledgers path ++ written)) := by
  induction rest generalizing written with
  | nil =>
    rw [List.append_nil] at hsplit
    rw [hsplit]
    exact (sat_ret ()).mpr rfl
  | cons octet rest ih =>
    have hnext : written ++ [octet] ++ rest = JsonLines.lineOf attempt.toJson := by
      rw [List.append_assoc]
      exact hsplit
    have hstate : (s.withLedger path (s.ledgers path ++ written)).withLedger path
        ((s.withLedger path (s.ledgers path ++ written)).ledgers path ++ [octet]) =
        s.withLedger path (s.ledgers path ++ (written ++ [octet])) := by
      rw [withLedger_withLedger, withLedger_self, List.append_assoc]
    have hbounded : Bounded (s.withLedger path (s.ledgers path ++ (written ++ [octet]))) := by
      by_cases hrest : rest = []
      · rw [hrest, List.append_nil] at hnext
        rw [hnext]
        exact h.append hnamed hwhole hroom
      · exact h.torn path
          (JsonLines.torn_of_prefix (isLine_toJson attempt) _ hnext (by simp) hrest)
    refine sat_alone_act.mpr fun _ => ⟨trivial, ?_, ?_⟩
    · rw [hstate]
      exact hbounded
    · rw [hstate]
      exact ih hnext

theorem withLedger_nil (s : RepairWorld) (path : String) :
    s.withLedger path (s.ledgers path ++ []) = s := by
  rw [List.append_nil, RepairWorld.withLedger, Function.update_eq_self]

/-- The world behind a turn: one line and one call more. -/
def RepairWorld.afterTurn (s : RepairWorld) (attempt : HubLandingRepairAttempt) : RepairWorld where
  ledgers := (s.withLedger (ledgerOf attempt.taskId attempt.sourceOid)
    (s.ledgers (ledgerOf attempt.taskId attempt.sourceOid) ++
      JsonLines.lineOf attempt.toJson)).ledgers
  agentCalls := fun k t o => s.agentCalls k t o +
    if k = attempt.kind ∧ t = attempt.taskId ∧ o = attempt.sourceOid then 1 else 0

theorem afterTurn_ledgers (s : RepairWorld) (attempt : HubLandingRepairAttempt) :
    (s.afterTurn attempt).ledgers (ledgerOf attempt.taskId attempt.sourceOid) =
      s.ledgers (ledgerOf attempt.taskId attempt.sourceOid) ++
        JsonLines.lineOf attempt.toJson :=
  withLedger_self _ _ _

theorem Bounded.afterTurn {s : RepairWorld} (h : Bounded s) {attempt : HubLandingRepairAttempt}
    (hnamed : IsNamed attempt)
    (hwhole : IsWhole (s.ledgers (ledgerOf attempt.taskId attempt.sourceOid)))
    (hroom : usedAttemptsForKind (s.ledgers (ledgerOf attempt.taskId attempt.sourceOid))
      attempt.kind < HUB_LANDING_REPAIR_BUDGET) :
    Bounded (s.afterTurn attempt) := by
  have happended := h.append hnamed hwhole hroom
  have hused := used_append hwhole hnamed attempt.kind
  rw [if_pos rfl] at hused
  have hbefore := h.counted attempt.kind attempt.taskId attempt.sourceOid hwhole
  refine ⟨fun kind taskId sourceOid => ?_, happended.used,
    fun kind taskId sourceOid hother => ?_⟩
  · have hcalls := h.calls kind taskId sourceOid
    change s.agentCalls kind taskId sourceOid + (if _ then 1 else 0) ≤ _
    split
    · rename_i hsame
      obtain ⟨rfl, rfl, rfl⟩ := hsame
      omega
    · omega
  · have hcounted := happended.counted kind taskId sourceOid hother
    change s.agentCalls kind taskId sourceOid + (if _ then 1 else 0) ≤ _
    split
    · rename_i hsame
      obtain ⟨rfl, rfl, rfl⟩ := hsame
      change _ ≤ usedAttemptsForKind ((s.withLedger _ _).ledgers _) _
      rw [withLedger_self]
      omega
    · exact hcounted

theorem sat_turn {s : RepairWorld} (h : Bounded s) {kind : HubLandingRepairKind} {taskId : TaskId}
    {sourceOid : Oid} {fingerprint : String} {candidateOid : Option Oid} {generation : Option Int}
    {now : IsoText} (htask : trim taskId ≠ "") (hsource : trim sourceOid ≠ "")
    (hfingerprint : trim fingerprint ≠ "")
    (hwhole : IsWhole (s.ledgers (ledgerOf taskId sourceOid)))
    (hroom : usedAttemptsForKind (s.ledgers (ledgerOf taskId sourceOid)) kind <
      HUB_LANDING_REPAIR_BUDGET)
    {next : RepairProg Bool}
    (hnext : ∀ t, Bounded t → IsWhole (t.ledgers (ledgerOf taskId sourceOid)) →
      usedAttemptsForKind (t.ledgers (ledgerOf taskId sourceOid)) kind =
        usedAttemptsForKind (s.ledgers (ledgerOf taskId sourceOid)) kind + 1 →
      Sat (.alone Bounded fun _ _ => True) (fun _ _ => True) E next t) :
    Sat (.alone Bounded fun _ _ => True) (fun _ _ => True) E
      ((recordHubLandingRepairAttempt kind taskId sourceOid fingerprint candidateOid generation
        now).bind fun _ => (callAgent kind taskId sourceOid).bind fun _ => next) s := by
  let attempt : HubLandingRepairAttempt :=
    { kind, taskId, sourceOid, fingerprint, candidateOid, candidateGeneration := generation
      attempt := usedAttemptsForKind (s.ledgers (ledgerOf taskId sourceOid)) kind + 1
      createdAt := now.text }
  have hnamed : IsNamed attempt := ⟨htask, hsource, hfingerprint, now.ne⟩
  have hwritten : Sat (.alone Bounded fun _ _ => True)
      (fun _ t => t = s.withLedger (ledgerOf taskId sourceOid)
        (s.ledgers (ledgerOf taskId sourceOid) ++ JsonLines.lineOf attempt.toJson)) E
      (writeOctets (ledgerOf taskId sourceOid) (JsonLines.lineOf attempt.toJson))
      (s.withLedger (ledgerOf taskId sourceOid) (s.ledgers (ledgerOf taskId sourceOid) ++ [])) :=
    sat_writeOctets h hnamed hwhole hroom rfl
  rw [withLedger_nil] at hwritten
  refine sat_bind (Q := fun _ t => t = s.withLedger (ledgerOf taskId sourceOid)
    (s.ledgers (ledgerOf taskId sourceOid) ++ JsonLines.lineOf attempt.toJson)) ?_ ?_
  · refine sat_reads_bind.mpr ?_
    rintro t rfl hbounded -
    exact ⟨trivial, hbounded, hwritten⟩
  · rintro _ t rfl
    have hafter : Bounded (s.afterTurn attempt) := h.afterTurn hnamed hwhole hroom
    refine sat_alone_act.mpr fun _ => ⟨trivial, hafter, ?_⟩
    have hledger : (s.afterTurn attempt).ledgers (ledgerOf taskId sourceOid) =
        s.ledgers (ledgerOf taskId sourceOid) ++ JsonLines.lineOf attempt.toJson :=
      afterTurn_ledgers s attempt
    refine hnext (s.afterTurn attempt) hafter ?_ ?_
    · rw [hledger, IsWhole, JsonLines.tailOf_append (isLine_toJson attempt)]
      simp
    · have hadded := used_append hwhole hnamed kind
      have hkind : attempt.kind = kind := rfl
      rw [if_pos hkind] at hadded
      rw [hledger, hadded]

/-! ### The loops -/

theorem room_of_remaining {ledger : List UInt8} {kind : HubLandingRepairKind}
    {fingerprint : Option String}
    (h : ¬remainingHubLandingRepairAttempts ledger kind fingerprint = 0) :
    usedAttemptsForKind ledger kind < HUB_LANDING_REPAIR_BUDGET := by
  have hle : remainingHubLandingRepairAttempts ledger kind fingerprint ≤
      HUB_LANDING_REPAIR_BUDGET - usedAttemptsForKind ledger kind := by
    unfold remainingHubLandingRepairAttempts
    cases fingerprint with
    | none => exact Nat.le_refl _
    | some fingerprint =>
      dsimp only
      split
      · exact Nat.le_refl _
      · exact Nat.min_le_left _ _
  omega

theorem sat_conflictLoop {taskId : TaskId} {sourceOid : Oid} {fingerprint : String}
    (htask : trim taskId ≠ "") (hsource : trim sourceOid ≠ "")
    (hfingerprint : trim fingerprint ≠ "")
    (turns : Nat → ConflictTurn) (fuel made : Nat) {s : RepairWorld} (h : Bounded s)
    (hwhole : IsWhole (s.ledgers (ledgerOf taskId sourceOid))) :
    Sat (.alone Bounded fun _ _ => True) (fun _ _ => True)
      (fun _ _ => fuel + usedAttemptsForKind (s.ledgers (ledgerOf taskId sourceOid))
        .mergeConflict ≤ HUB_LANDING_REPAIR_BUDGET)
      (conflictLoop taskId sourceOid fingerprint turns fuel made) s := by
  induction fuel generalizing made s with
  | zero =>
    have hused := h.used _ hwhole .mergeConflict
    exact (sat_raise ()).mpr (by omega)
  | succ fuel ih =>
    refine sat_reads_bind.mpr ?_
    rintro t rfl hbounded -
    refine ⟨trivial, hbounded, ?_⟩
    split
    · exact (sat_ret false).mpr trivial
    rename_i hremaining
    have hroom := room_of_remaining hremaining
    refine sat_turn h htask hsource hfingerprint hwhole hroom fun t ht htwhole htused => ?_
    split
    · exact (sat_ret true).mpr trivial
    · refine sat_mono (ih (made + 1) ht htwhole) (fun _ _ _ => trivial) fun _ _ hleft => ?_
      omega

theorem sat_verifyLoop {session : VerifySession} {sourceOid : Oid}
    (hsession : session.sourceOid = some sourceOid) (htask : trim session.taskId ≠ "")
    (hsource : sourceOid ≠ "" → trim sourceOid ≠ "") {turns : Nat → VerifyTurn}
    (hturns : ∀ i, ∀ oid ∈ (turns i).snapshot, trim oid ≠ "") (fuel made : Nat)
    {candidateOid : Option Oid} (hcandidate : ∀ oid ∈ candidateOid, trim oid ≠ "")
    (verified : Bool) {s : RepairWorld} (h : Bounded s)
    (hwhole : IsWhole (s.ledgers (ledgerOf session.taskId sourceOid))) :
    Sat (.alone Bounded fun _ _ => True) (fun _ _ => True)
      (fun _ _ => fuel + usedAttemptsForKind (s.ledgers (ledgerOf session.taskId sourceOid))
        .verification ≤ HUB_LANDING_REPAIR_BUDGET)
      (verifyLoop session turns fuel made candidateOid verified) s := by
  induction fuel generalizing made candidateOid verified s with
  | zero =>
    have hused := h.used _ hwhole .verification
    cases verified with
    | true => exact (sat_ret true).mpr trivial
    | false => exact (sat_raise ()).mpr (by omega)
  | succ fuel ih =>
    cases verified with
    | true => exact (sat_ret true).mpr trivial
    | false =>
      rw [verifyLoop, hsession]
      refine sat_reads_bind.mpr ?_
      rintro t rfl hbounded -
      refine ⟨trivial, hbounded, ?_⟩
      split
      · exact (sat_ret false).mpr trivial
      rename_i hgoes
      simp only [not_or] at hgoes
      obtain ⟨hne, hremaining, -, -⟩ := hgoes
      have hfingerprint : trim (candidateOid.getD sourceOid) ≠ "" := by
        cases candidateOid with
        | none => exact hsource hne
        | some oid => exact hcandidate oid rfl
      have hroom := room_of_remaining hremaining
      refine sat_turn h htask (hsource hne) hfingerprint hwhole hroom
        fun t ht htwhole htused => ?_
      -- The snapshot only changes the candidate.
      split
      · have hnext : ∀ oid ∈ (turns made).snapshot.or candidateOid, trim oid ≠ "" := by
          intro oid hoid
          cases hsnapshot : (turns made).snapshot with
          | none =>
            rw [hsnapshot, Option.none_or] at hoid
            exact hcandidate oid hoid
          | some snapshot =>
            rw [hsnapshot, Option.some_or] at hoid
            exact hturns made oid (hsnapshot ▸ hoid)
        refine sat_mono (ih (made + 1) hnext (turns made).verified ht htwhole)
          (fun _ _ _ => trivial) fun _ _ hleft => ?_
        omega
      · refine sat_mono (ih (made + 1) hcandidate false ht htwhole)
          (fun _ _ _ => trivial) fun _ _ hleft => ?_
        omega

/-! ### Runs -/

/-- The run's names are not blank, so the reader finds its lines. -/
def IsNamedRun (git : Git) : RepairRun → Prop
  | .verifyWithBoundedRepair session candidateOid _ turns =>
    trim session.taskId ≠ "" ∧ (∀ oid ∈ session.sourceOid, oid ≠ "" → trim oid ≠ "") ∧
      (∀ oid ∈ candidateOid, trim oid ≠ "") ∧ ∀ i, ∀ oid ∈ (turns i).snapshot, trim oid ≠ ""
  | .runGitMergeInCwd _ taskId sourceOid baseOid _ =>
    trim taskId ≠ "" ∧ trim sourceOid ≠ "" ∧
      trim (computeHubLandingMergeInputFingerprint git sourceOid baseOid) ≠ ""

/-- The run's ledger does not end with a torn line. -/
def StartsWhole (s : RepairWorld) : RepairRun → Prop
  | .verifyWithBoundedRepair session _ _ _ =>
    ∀ oid ∈ session.sourceOid, IsWhole (s.ledgers (ledgerOf session.taskId oid))
  | .runGitMergeInCwd _ taskId sourceOid _ _ => IsWhole (s.ledgers (ledgerOf taskId sourceOid))

/-- The run may start: its names are not blank, and no crash has torn its ledger. -/
def MayStart (git : Git) (s : RepairWorld) (run : RepairRun) : Prop :=
  IsNamedRun git run ∧ StartsWhole s run

theorem sat_prog {git : Git} {s : RepairWorld} {run : RepairRun} (h : Bounded s)
    (hstart : MayStart git s run) (fuel : Nat) :
    Sat (.alone Bounded fun _ _ => True) (fun _ _ => True)
      (fun _ _ => fuel ≤ HUB_LANDING_REPAIR_BUDGET) (run.prog git fuel) s := by
  obtain ⟨hnamed, hwhole⟩ := hstart
  cases run with
  | verifyWithBoundedRepair session candidateOid verified turns =>
    obtain ⟨htask, hsource, hcandidate, hturns⟩ := hnamed
    cases hsession : session.sourceOid with
    | some sourceOid =>
      refine sat_mono (sat_verifyLoop hsession htask (hsource sourceOid hsession) hturns fuel 0
        hcandidate verified h (hwhole sourceOid hsession)) (fun _ _ _ => trivial)
        fun _ _ hleft => ?_
      omega
    | none =>
      cases verified with
      | true => cases fuel <;> exact (sat_ret true).mpr trivial
      | false =>
        cases fuel with
        | zero => exact (sat_raise ()).mpr (Nat.zero_le _)
        | succ fuel =>
          change Sat _ _ _ (verifyLoop session turns (fuel + 1) 0 candidateOid false) s
          rw [verifyLoop, hsession]
          exact (sat_ret false).mpr trivial
  | runGitMergeInCwd merge taskId sourceOid baseOid turns =>
    obtain ⟨htask, hsource, hfingerprint⟩ := hnamed
    cases merge with
    | merged => exact (sat_ret true).mpr trivial
    | failed => exact (sat_ret false).mpr trivial
    | conflict =>
      refine sat_mono (sat_conflictLoop htask hsource hfingerprint turns fuel 0 h hwhole)
        (fun _ _ _ => trivial) fun _ _ hleft => ?_
      omega

theorem bounded_start : Bounded {} where
  calls := fun _ _ _ => Nat.zero_le _
  used := fun _ _ _ => Nat.zero_le _
  counted := fun _ _ _ _ => Nat.zero_le _

theorem bounded_of_repaired {git : Git} {s : RepairWorld} (h : Repaired git (MayStart git) s) :
    Bounded s := by
  induction h with
  | start => exact bounded_start
  | run run fuel steps _ hstart ih => exact (sat_prog ih hstart fuel).crashAfter ih steps

/-- In every sequence of runs that start without a torn ledger, for every task and source commit the
agents are called within the budget, and every loop ends within one turn more. -/
theorem agentCalls_le_budget (git : Git) {s : RepairWorld} (h : Repaired git (MayStart git) s) :
    (∀ kind taskId sourceOid,
      s.agentCalls kind taskId sourceOid ≤ HUB_LANDING_REPAIR_BUDGET) ∧
    ∀ run, MayStart git s run → ∀ fuel, HUB_LANDING_REPAIR_BUDGET < fuel →
      ∃ result, ((run.prog git fuel).run s).1 = .ok result := by
  have hbounded := bounded_of_repaired h
  refine ⟨hbounded.calls, fun run hstart fuel hfuel => ?_⟩
  obtain ⟨-, hend⟩ := (sat_prog hbounded hstart fuel).run hbounded
  cases hresult : ((run.prog git fuel).run s).1 with
  | ok result => exact ⟨result, rfl⟩
  | error e =>
    rw [hresult] at hend
    exact absurd hfuel (Nat.not_lt.mpr hend)

/-! ### Behind a torn line -/

theorem run_writeOctets (path : String) (octets : List UInt8) (s : RepairWorld) :
    (writeOctets path octets).run s =
      (.ok (), s.withLedger path (s.ledgers path ++ octets)) := by
  induction octets generalizing s with
  | nil =>
    rw [withLedger_nil]
    rfl
  | cons octet octets ih =>
    have hstep : (writeOctets path (octet :: octets)).run s =
        (writeOctets path octets).run (s.withLedger path (s.ledgers path ++ [octet])) := rfl
    rw [hstep, ih, withLedger_withLedger, withLedger_self, List.append_assoc]
    rfl

/-- A verification of the task whose repairs all fail. -/
def failingSession : VerifySession := ⟨"t1", some "abc", true, true⟩

theorem noon_ne : trim "2024-01-01T12:00:00.000Z" ≠ "" := by decide

def noon : IsoText := ⟨"2024-01-01T12:00:00.000Z", noon_ne⟩

def failingTurns (_ : Nat) : VerifyTurn := ⟨noon, false, none, false⟩

def failingAttempt (used made : Nat) : HubLandingRepairAttempt where
  kind := .verification
  taskId := "t1"
  sourceOid := "abc"
  fingerprint := "abc"
  attempt := used + 1
  createdAt := noon.text
  candidateGeneration := some (made + 2)

def failingRun : RepairRun :=
  .verifyWithBoundedRepair failingSession none false failingTurns

theorem failingRun_mayStart : MayStart sampleGit {} failingRun := by
  refine ⟨⟨by decide, ?_, ?_, ?_⟩, ?_⟩
  · rintro oid hoid -
    cases hoid
    decide
  · intro oid hoid
    cases hoid
  · intro i oid hoid
    cases hoid
  · intro oid _ c hc
    cases hc

/-- The run is cut off in its third line. -/
theorem failingRun_bounded :
    ((failingRun.prog sampleGit 3).crashAfter 500 {}).agentCalls .verification "t1" "abc" ≤
      HUB_LANDING_REPAIR_BUDGET :=
  (agentCalls_le_budget sampleGit (.run failingRun 3 500 .start failingRun_mayStart)).1
    .verification "t1" "abc"

theorem run_failing_turn {s : RepairWorld} {used : Nat} (fuel made : Nat)
    (hused : usedAttemptsForKind (s.ledgers (ledgerOf "t1" "abc")) .verification = used)
    (hroom : used < HUB_LANDING_REPAIR_BUDGET) :
    (verifyLoop failingSession failingTurns (fuel + 1) made none false).run s =
      (verifyLoop failingSession failingTurns fuel (made + 1) none false).run
        (s.afterTurn (failingAttempt used made)) := by
  have hrecord : (recordHubLandingRepairAttempt .verification "t1" "abc" "abc" none
      (some (made + 2)) noon).run s = (.ok (), s.withLedger (ledgerOf "t1" "abc")
        (s.ledgers (ledgerOf "t1" "abc") ++
          JsonLines.lineOf (failingAttempt used made).toJson)) := by
    rw [← hused]
    exact run_writeOctets _ _ s
  have hgoes : ¬("abc" = "" ∨ remainingHubLandingRepairAttempts
      (s.ledgers (resolveHubLandingRepairBudgetPath "t1" "abc")) .verification none = 0 ∨
      true = false ∨ true = false) := by
    have hremaining : remainingHubLandingRepairAttempts
        (s.ledgers (resolveHubLandingRepairBudgetPath "t1" "abc")) .verification none =
        HUB_LANDING_REPAIR_BUDGET - used := by
      rw [← hused]
      rfl
    rw [hremaining]
    simp only [Bool.true_eq_false, or_false, not_or]
    exact ⟨by decide, by omega⟩
  refine (congrArg (Prog.run · s) (if_neg hgoes)).trans ?_
  exact (run_bind_ok hrecord _).trans rfl

theorem afterTurn_ledger (s : RepairWorld) (used made : Nat) :
    (s.afterTurn (failingAttempt used made)).ledgers (ledgerOf "t1" "abc") =
      s.ledgers (ledgerOf "t1" "abc") ++ JsonLines.lineOf (failingAttempt used made).toJson := by
  exact afterTurn_ledgers s (failingAttempt used made)

theorem afterTurn_calls (s : RepairWorld) (used made : Nat) :
    (s.afterTurn (failingAttempt used made)).agentCalls .verification "t1" "abc" =
      s.agentCalls .verification "t1" "abc" + 1 :=
  congrArg (s.agentCalls .verification "t1" "abc" + ·) (if_pos ⟨rfl, rfl, rfl⟩)

theorem used_torn (attempt : HubLandingRepairAttempt) :
    usedAttemptsForKind ([0x7B] ++ JsonLines.lineOf attempt.toJson) .verification = 0 := by
  have htail : JsonLines.tailOf [0x7B] = ['{'] := by decide +kernel
  have hlines : JsonLines.wholeLines [0x7B] = [] := by decide +kernel
  have htorn : ∃ c ∈ JsonLines.tailOf [0x7B], isWhitespace c = false := by
    rw [htail]
    exact ⟨'{', List.mem_singleton_self _, rfl⟩
  have hread : readHubLandingRepairAttempts ([0x7B] ++ JsonLines.lineOf attempt.toJson) =
      JsonLines.readLines parseRepairAttempt (JsonLines.wholeLines [0x7B]) :=
    JsonLines.read_append_torn (isLine_toJson attempt) htorn
  rw [usedAttemptsForKind, hread, hlines]
  rfl

/-- A crash after the first octet of a line, and the next run makes three calls. -/
theorem torn_ledger_uncounted : ¬ ∀ (git : Git) (s : RepairWorld),
    Repaired git (fun _ _ => True) s → ∀ kind taskId sourceOid,
      s.agentCalls kind taskId sourceOid ≤ HUB_LANDING_REPAIR_BUDGET := by
  intro hbound
  let loop := verifyLoop failingSession failingTurns 3 0 none false
  let s := loop.crashAfter 3 {}
  have hledger : s.ledgers (ledgerOf "t1" "abc") = [0x7B] := by decide +kernel
  have hcalls : s.agentCalls .verification "t1" "abc" = 0 := rfl
  -- The first turn is not counted, the next two are.
  let s₁ := s.afterTurn (failingAttempt 0 0)
  let s₂ := s₁.afterTurn (failingAttempt 0 1)
  let s₃ := s₂.afterTurn (failingAttempt 1 2)
  have hused : usedAttemptsForKind (s.ledgers (ledgerOf "t1" "abc")) .verification = 0 := by
    rw [hledger]
    decide +kernel
  have hledger₁ := afterTurn_ledger s 0 0
  rw [hledger] at hledger₁
  have hused₁ : usedAttemptsForKind (s₁.ledgers (ledgerOf "t1" "abc")) .verification = 0 := by
    rw [hledger₁]
    exact used_torn _
  have hwhole₁ : IsWhole (s₁.ledgers (ledgerOf "t1" "abc")) := by
    rw [hledger₁, IsWhole, JsonLines.tailOf_append (isLine_toJson _)]
    simp
  have hnamed : IsNamed (failingAttempt 0 1) := by
    constructor <;> decide
  have hused₂ : usedAttemptsForKind (s₂.ledgers (ledgerOf "t1" "abc")) .verification = 1 := by
    rw [afterTurn_ledger, used_append hwhole₁ hnamed, hused₁]
    rfl
  have hrun : loop.run s = (.error (), s₃) := by
    rw [run_failing_turn 2 0 hused (by decide), run_failing_turn 1 1 hused₁ (by decide),
      run_failing_turn 0 2 hused₂ (by decide)]
    rfl
  obtain ⟨steps, hsteps⟩ := visits_end loop s
  have hreached : Repaired sampleGit (fun _ _ => True) s₃ := by
    have hstart : Repaired sampleGit (fun _ _ => True) s :=
      .run failingRun 3 3 .start trivial
    have hnext := Repaired.run failingRun 3 steps hstart trivial
    have hstate : loop.crashAfter steps s = s₃ := by
      rw [hsteps, hrun]
    rw [← hstate]
    exact hnext
  have hthree := hbound sampleGit s₃ hreached .verification "t1" "abc"
  rw [afterTurn_calls, afterTurn_calls, afterTurn_calls, hcalls] at hthree
  exact absurd hthree (by decide)

end ArchLoop.RepairLedger
