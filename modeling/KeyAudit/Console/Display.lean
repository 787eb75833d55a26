import KeyAudit.Audit.Report
import KeyAudit.Console.Output
import KeyAudit.Json.Writer
import KeyAudit.Yaml.Block

/-!
# What the console shows

The console shows messages as lines with a mark of their kind in front. Messages are
escaped, so their brackets are shown as they are. Structured output bypasses all that:
it is written as JSON or YAML.
-/

namespace KeyAudit

namespace Console

/-- Shows a message with a mark in a style in front. -/
def marked (style mark message : Text) : Output :=
  .line (Markup.styled style mark ++ " " ++ Markup.escape message)

/-- Shows the lines of an announcement. -/
def announce (message : Text) : List Output :=
  (Text.breakLines message).map fun line => .line (Markup.styled "blue" (Markup.escape line))

/-- Shows that something went well. -/
def success (message : Text) : List Output := [marked "green" "✓" message]

/-- Shows that something is amiss. -/
def warning (message : Text) : List Output := [marked "yellow" "⚠" message]

/-- Shows that something went wrong, with details on a line of their own. -/
def failure (message details : Text) : List Output :=
  marked "red" "✗" message ::
    if details = [] then [] else [.line ("  " ++ Markup.styled "dim" (Markup.escape details))]

/-- Shows a text. -/
def info (message : Text) : List Output := [.line (Markup.escape message)]

/-- Something that is reported while a command is carried out. -/
inductive Event
  | finding (f : Finding)
  | text (s : Text)

/-- Shows an event. -/
def event : Event → List Output
  | .finding f =>
    match f.kind with
    | .emptyValue => warning f.message
    | .unused => failure f.message ""
    | .used => success f.message
  | .text s => info s

/-- Structured output: YAML if it is asked for by name, JSON otherwise. -/
def structured (format : Text) (layout : Json.Layout) (value : Json) : Output :=
  .verbatim (if format = "yaml" then Yaml.document value else value.write layout 0 ++ "\n")

end Console

end KeyAudit
