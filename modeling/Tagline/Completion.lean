import Tagline.Session

/-!
# Completion while a line is typed

A line that begins with a backslash is a command of the shell and is completed
from the list of commands; any other line is completed by the session.  Places on
a line are byte offsets.
-/

namespace Tagline

/-- The commands of the shell that are offered for completion. -/
def metaCommands : List Text :=
  [ "\\history", "\\forget", "\\scan", "\\reload", "\\confirm", "\\format",
    "\\delete-history", "\\help", "\\quit", "\\q" ]

/-- Where a completion begins, and what can be put there: the text in the menu
and the text on the line. -/
structure Completion where
  start : Nat
  choices : List (Text × Text) := []
deriving DecidableEq

/-- Completes the name of a command. -/
def completeMeta (line : Text) (position : Nat) : Completion :=
  let typed := Text.takeBytes position line
  if typed.any Text.isBlank then { start := position }
  else
    { start := 0
      choices :=
        (metaCommands.filter fun c => (Text.lower typed).isPrefixOf c).map fun c => (c, c) }

/-- The line of a suggestion in the menu. -/
def Suggestion.menuText (s : Suggestion) : Text :=
  match s.icon with
  | some icon => icon ++ ' ' :: s.display
  | none => s.display

/-- Suggestions as the choices of a completion, which begins where the first
of them does. -/
def Completion.ofSuggestions (suggestions : List Suggestion) (position : Nat) : Completion where
  start :=
    match suggestions.head?.bind (·.span) with
    | some span => min span.start position
    | none => position
  choices := suggestions.map fun s => (s.menuText, s.replacement)

namespace Session

variable {β : Type}

/-- Completes a tag line. -/
def completeTag (s : Session β) (line : Text) (position : Nat) : Completion :=
  match s.suggest line (Text.takeBytes position line).length with
  | some suggestions => Completion.ofSuggestions suggestions position
  | none => { start := position }

/-- The hint behind a line, away from what is typed. -/
def tagHint (s : Session β) (line : Text) : Option Text :=
  (s.hint line).map fun hint => "   " ++ hint

end Session

variable {β : Type}

/-- Completes a line.  While the session is in use (`none`) only commands are
completed. -/
def complete (session : Option (Session β)) (line : Text) (position : Nat) : Completion :=
  match line with
  | '\\' :: _ => completeMeta line position
  | _ =>
      match session with
      | some s => s.completeTag line position
      | none => { start := position }

/-- The hint behind a line, with the cursor at its end. -/
def lineHint (session : Option (Session β)) (line : Text) (position : Nat) : Option Text :=
  if position < Text.bytes line then none else session.bind fun s => s.tagHint line

end Tagline
