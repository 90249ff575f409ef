import ArchLoop.Lib.Pattern

/-!
# `ArchLoop.DraftPrompt`: the prompts for proposals

`substituteTriageDraftPrompt` (`hubTriageProposal.ts`) and `substitutePrdDecompositionDraftPrompt`
(`hubPrdDecomposition.ts`) put the tasks, or the document, into the template of a prompt: one
`replaceAll` for each placeholder, one after the other.

The replacement of `replaceAll` is not a plain text. Some pairs of characters in it, which begin
with a dollar sign, stand for the match or for what is around it.
-/

set_option autoImplicit false

namespace ArchLoop.DraftPrompt

open ArchLoop.Lib.Pattern

/-! ### `replaceAll` -/

/-- The text at the front of a text. -/
def literal (key : List Char) : Matcher Char Unit := fun text =>
  if key.isPrefixOf text then some ((), key.length - 1) else none

/-- What a replacement stands for at a match, with the text before it and behind it. A dollar sign
before anything else is one. -/
def getSubstitution (before matched after : List Char) : List Char → List Char
  | '$' :: '$' :: rest => '$' :: getSubstitution before matched after rest
  | '$' :: '&' :: rest => matched ++ getSubstitution before matched after rest
  | '$' :: '`' :: rest => before ++ getSubstitution before matched after rest
  | '$' :: '\x27' :: rest => after ++ getSubstitution before matched after rest
  | c :: rest => c :: getSubstitution before matched after rest
  | [] => []

/-- `replaceAll`, for a text that is not empty. -/
def replaceAll (key value text : List Char) : List Char :=
  weave (scan (literal key) text) ((matchAll (literal key) text).map fun found =>
    getSubstitution (text.take found.index) key (text.drop (found.index + found.length)) value)

/-! ### Contexts -/

structure HubTaskSummary where
  totalTasks : Nat
  inboxCount : Nat
  needsInfoCount : Nat

/-- A task in the catalog of the board. -/
structure CatalogTask where
  id : String
  title : String
  hubStatus : String

structure TriagePreparedContext where
  taskQuery : String
  taskCount : Nat
  hubTaskSummary : HubTaskSummary
  boardTaskCatalog : List CatalogTask
  taskDetails : String

structure PrdDecompositionPreparedContext where
  prdRef : String
  prdTitle : String
  prdContent : String
  hubTaskSummary : HubTaskSummary

def formatHubTaskSummaryText (summary : HubTaskSummary) : String :=
  "\n".intercalate
    ["Total tasks: " ++ toString summary.totalTasks, "Inbox: " ++ toString summary.inboxCount,
      "Needs info: " ++ toString summary.needsInfoCount]

def formatBoardTaskCatalogText (catalog : List CatalogTask) : String :=
  "\n".intercalate (catalog.map fun entry =>
    "- " ++ entry.id ++ ": " ++ entry.title ++ " (" ++ entry.hubStatus ++ ")")

/-! ### Prompts -/

/-- The placeholder with a name. -/
def placeholder (name : String) : List Char := '{' :: '{' :: (name.toList ++ ['}', '}'])

/-- A placeholder and what is put in for it. -/
abbrev Substitution : Type := List Char × List Char

/-- `replaceAll` for one placeholder after the other. -/
def replaceEach (substitutions : List Substitution) (template : List Char) : List Char :=
  substitutions.foldl (fun text substitution => replaceAll substitution.1 substitution.2 text)
    template

/-- The placeholders of `substituteTriageDraftPrompt`, in its order. -/
def triageSubstitutions (context : TriagePreparedContext) : List Substitution :=
  [(placeholder "TASK_QUERY", context.taskQuery.toList),
    (placeholder "TASK_COUNT", (toString context.taskCount).toList),
    (placeholder "HUB_TASK_SUMMARY", (formatHubTaskSummaryText context.hubTaskSummary).toList),
    (placeholder "BOARD_TASK_CATALOG",
      (formatBoardTaskCatalogText context.boardTaskCatalog).toList),
    (placeholder "TASK_DETAILS", context.taskDetails.toList)]

def substituteTriageDraftPrompt (template : List Char) (context : TriagePreparedContext) :
    List Char :=
  replaceEach (triageSubstitutions context) template

/-- The placeholders of `substitutePrdDecompositionDraftPrompt`, in its order. -/
def prdSubstitutions (context : PrdDecompositionPreparedContext) : List Substitution :=
  [(placeholder "PRD_REF", context.prdRef.toList),
    (placeholder "PRD_TITLE", context.prdTitle.toList),
    (placeholder "HUB_TASK_SUMMARY", (formatHubTaskSummaryText context.hubTaskSummary).toList),
    (placeholder "PRD_CONTENT", context.prdContent.toList)]

def substitutePrdDecompositionDraftPrompt (template : List Char)
    (context : PrdDecompositionPreparedContext) : List Char :=
  replaceEach (prdSubstitutions context) template

end ArchLoop.DraftPrompt
