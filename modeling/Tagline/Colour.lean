import Tagline.Prefix

/-!
# Colours on a tag line

On a terminal the tag prefix is grey, the name of the database is bold and cyan,
and the type is green; all else is left as it is typed.  A hint is dimmed.

A colour is a pair of escape sequences around a text.  Where the text itself
switches colours off, the colour is switched on again behind that.
-/

namespace Tagline

/-- The character that begins an escape sequence. -/
def escapeChar : Char := '\x1b'

/-- A way to show a text on a terminal. -/
inductive Style where
  | grey
  | boldCyan
  | green
  | dimmed

namespace Style

/-- The sequence that switches all colours off. -/
def reset : Text := [escapeChar, '[', '0', 'm']

/-- The parameters of the sequence that switches a style on. -/
def parameters : Style → Text
  | .grey => "90"
  | .boldCyan => "1;96"
  | .green => "32"
  | .dimmed => "2"

/-- The sequence that switches a style on. -/
def start (s : Style) : Text :=
  escapeChar :: '[' :: (s.parameters ++ ['m'])

/-- A text in a style. -/
def paint (s : Style) (t : Text) : Text :=
  s.start ++ List.intercalate (reset ++ s.start) (Text.pieces reset t) ++ reset

end Style

/-- A line without its prefix, with the database and the type in colour. -/
def paintBody (body : Text) : Text :=
  let head := body.takeWhile fun c => !Text.isBlank c
  let rest := body.dropWhile fun c => !Text.isBlank c
  let painted :=
    match Text.cutAt '/' head with
    | some (database, type) =>
        Style.boldCyan.paint database ++ '/' :: Style.green.paint type
    | none => Style.boldCyan.paint head
  painted ++ rest

/-- A line in colour; a line that is no tag line as it is. -/
def highlight (line : Text) : Text :=
  match Prefix.split? line with
  | none => line
  | some (lead, body) => Style.grey.paint lead ++ paintBody body

/-- A hint behind the line. -/
def highlightHint (hint : Text) : Text :=
  Style.dimmed.paint hint

/-- A prompt, which has its colours already. -/
def highlightPrompt (prompt : Text) : Text :=
  prompt

end Tagline
