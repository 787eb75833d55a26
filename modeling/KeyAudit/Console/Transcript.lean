import KeyAudit.Command
import KeyAudit.Console.Display

/-!
# Showing a command

A command is shown in four stages: what it is going to do, what it reports, its
result, and its output, if that is asked for in a structured format.
-/

namespace KeyAudit

/-- What the program has written, and how it ended: with an exit code or with a
    fault. -/
structure Transcript where
  out : String
  err : String
  ending : Except Fault Nat

namespace Transcript

/-- The ending of work whose output has been written, unless that failed. -/
def endingAfter (error? : Option Console.WriteError) (ending : Except Fault Nat) :
    Except Fault Nat :=
  match error? with
  | some error => .error (.unwritable error)
  | none => ending

/-- What is written to the standard output, then the ending. -/
def shown (pieces : List Console.Output) (ending : Except Fault Nat) : Transcript :=
  let (text, error?) := Console.writeAll pieces
  ⟨text, "", endingAfter error? ending⟩

/-- What is written to the standard error output, then the exit code. -/
def complained (pieces : List Console.Output) (code : Nat) : Transcript :=
  let (text, error?) := Console.writeAll pieces
  ⟨"", text, endingAfter error? (.ok code)⟩

/-- Nothing but a fault. -/
def broken (fault : Fault) : Transcript := ⟨"", "", .error fault⟩

end Transcript

namespace Console

/-- The format that shows no output. -/
def textFormat : Text := "text"

/-- The formats of output. -/
def formats : List Text := [textFormat, "json", "yaml"]

/-- How structured output is laid out. -/
def outputLayout : Json.Layout := some 2

/-- Shows the result of a command. -/
def showResult (outcome : Outcome) : List Output :=
  if outcome.success then success outcome.result else failure outcome.result ""

/-- Shows the output of a command. -/
def showOutput (format : Text) (outcome : Outcome) : List Output :=
  if format = textFormat then [] else [structured format outputLayout (.obj outcome.output)]

/-- Shows a command that announces itself, reports events and ends with an
    outcome, unless it breaks off. A command without a result is at fault. -/
def present (format announcement : Text) (events : List Event)
    (outcome : Except Fault Outcome) : Transcript :=
  let before := announce announcement ++ events.flatMap event
  match outcome with
  | .error fault => .shown before (.error fault)
  | .ok outcome =>
    if outcome.result = [] then .shown before (.error .noResult)
    else
      .shown (before ++ showResult outcome ++ showOutput format outcome)
        (.ok (if outcome.success then 0 else 1))

/-- Carries out a command and shows it; the log records are kept. A command that cannot
    be announced is not carried out. -/
def performAndPresent {σ : Type} [Scene σ] (format : Text) (s : σ) (command : Command) :
    List Record × Transcript :=
  match writeAll (announce command.announcement) with
  | (text, some error) => ([], ⟨text, "", .error (.unwritable error)⟩)
  | _ =>
    let report := command.perform s
    (report.records, present format command.announcement (report.events.map Event.finding)
      (report.outcome.mapError Fault.inaccessible))

end Console

end KeyAudit
