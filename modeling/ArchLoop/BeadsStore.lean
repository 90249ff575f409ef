import ArchLoop.Lib.Prog
import ArchLoop.TaskBoard

/-!
# `ArchLoop.BeadsStore`: the commands of `bd`

Every change of a task goes through a command of `bd`, and each command is one atomic step on
the stored issues (`bdCommand`). A command may fail without an effect, or take effect and fail
all the same, as when its output is lost: `outages` has what becomes of the next commands.

`bd update` merges `--metadata` into the stored metadata, `--set-labels` replaces the labels, and
`--unset-metadata` removes keys. `bd dep add` adds an edge once. Comments are left out.
-/

set_option autoImplicit false

namespace ArchLoop.TaskBoard

open ArchLoop.Lib

/-! ### Issues -/

/-- A stored issue. -/
structure BeadsIssue where
  id : TaskId
  title : String
  description : String := ""
  status : String := "open"
  labels : List String := []
  metadata : Record := []
  deriving DecidableEq

namespace BeadsIssue

variable (issue : BeadsIssue)

/-- The JSON object that `bd show` and `bd list` print. -/
def record : Record :=
  [("id", .str issue.id), ("title", .str issue.title), ("description", .str issue.description),
    ("status", .str issue.status), ("labels", .arr (issue.labels.map .str)),
    ("metadata", .obj issue.metadata)]

/-- The task that the board shows. -/
def projection : HubTaskProjection := projectHubTask issue.record

end BeadsIssue

/-- What becomes of a command: it is done, it is refused, or it is done and its answer is
lost. -/
inductive BdOutcome where
  | done
  | refused
  | lost
  deriving DecidableEq, Repr

/-- The task store.

- `edges`: the dependencies, each with the dependent first.
- `outages`: what becomes of the next commands. After that, all are done. -/
structure BeadsStore where
  issues : List BeadsIssue
  edges : List (TaskId × TaskId) := []
  outages : List BdOutcome := []

namespace BeadsStore

variable (s : BeadsStore)

/-- The issue with the id. -/
def issue (id : TaskId) : Option BeadsIssue := s.issues.find? (·.id = id)

/-- What becomes of the next command. -/
def outcome : BdOutcome := s.outages.head?.getD .done

/-- The issue with the id, changed. -/
def changeIssue (id : TaskId) (f : BeadsIssue → BeadsIssue) : BeadsStore :=
  { s with issues := s.issues.map fun issue => if issue.id = id then f issue else issue }

def addIssue (issue : BeadsIssue) : BeadsStore :=
  { s with issues := s.issues ++ [issue] }

def addEdge (dependentId blockerId : TaskId) : BeadsStore :=
  { s with edges := if (dependentId, blockerId) ∈ s.edges then s.edges
      else s.edges ++ [(dependentId, blockerId)] }

/-- The store after a command that would do `upd`. -/
def command (upd : BeadsStore → BeadsStore) : BeadsStore :=
  let t := if s.outcome = .refused then s else upd s
  { t with outages := s.outages.tail }

end BeadsStore

/-! ### Commands -/

/-- A program on the task store. It throws a `TaskBoardError` with a message. -/
abbrev BoardProg : Type → Type := Prog BeadsStore String

/-- A command of `bd`, with what it does and what it answers. -/
def bdCommand {α : Type} (failureLabel : String) (upd : BeadsStore → BeadsStore)
    (answer : BeadsStore → α) : BoardProg α :=
  .act (BeadsStore.command · upd) fun s =>
    if s.outcome = .done then .ret (answer s)
    else .raise ("archloop " ++ failureLabel ++ " failed")

end ArchLoop.TaskBoard
