import KeyAudit.Text.Split

/-!
# Options and arguments

Command lines are made of options and arguments. Options start with dashes: long
ones with two, short ones with one, and several short ones may share a dash. An
option may need a value, which follows an equals sign, the letter of a short
option, or comes next on the line. After `--` nothing is an option.

* `readLine` tells options from arguments; options may be mixed with arguments,
  or have to come before them.
-/

namespace KeyAudit.CommandLine

/-- What an option does: it sets something by itself, or by its value. -/
inductive Effect (α : Type)
  | flag (setting : α)
  | value (setting : Text → α)

/-- An option with its names. -/
structure Choice (α : Type) where
  names : List Text
  effect : Effect α

/-- Why an option is refused. -/
inductive OptionError
  | unknown (name : Text)
  | valueMissing (name : Text)
  | valueUnexpected (name : Text)
deriving Repr, DecidableEq

/-- What an argument that starts with a dash sets. The last option in it may
    still need the value that comes next on the line. -/
inductive Found (α : Type)
  | complete (settings : List α)
  | awaiting (settings : List α) (name : Text) (setting : Text → α)

variable {α : Type}

/-- The option of a name. -/
def choiceOf? (choices : List (Choice α)) (name : Text) : Option (Choice α) :=
  choices.find? fun c => c.names.contains name

/-- Reads short options that share a dash. -/
def readShort (choices : List (Choice α)) : Text → Except OptionError (Found α)
  | [] => .ok (.complete [])
  | letter :: rest =>
    let name : Text := ['-', letter]
    match choiceOf? choices name with
    | none => .error (.unknown name)
    | some ⟨_, .value setting⟩ =>
      if rest.isEmpty then .ok (.awaiting [] name setting)
      else .ok (.complete [setting rest])
    | some ⟨_, .flag setting⟩ =>
      match readShort choices rest with
      | .error error => .error error
      | .ok (.complete settings) => .ok (.complete (setting :: settings))
      | .ok (.awaiting settings name last) => .ok (.awaiting (setting :: settings) name last)

/-- Whether an argument is a long option. -/
def isLong (arg : Text) : Bool :=
  ("--" : Text).isPrefixOf arg

/-- The name in front of an equals sign, and the value behind it. -/
def splitValue (arg : Text) : Text × Option Text :=
  let name := Text.takeUntil '=' arg
  match Text.dropUntil '=' arg with
  | _ :: value => (name, some value)
  | [] => (name, none)

/-- Reads an argument that starts with a dash. -/
def readOption (choices : List (Choice α)) (arg : Text) : Except OptionError (Found α) :=
  if isLong arg then
    let (name, value?) := splitValue arg
    match choiceOf? choices name, value? with
    | none, _ => .error (.unknown name)
    | some ⟨_, .flag setting⟩, none => .ok (.complete [setting])
    | some ⟨_, .flag _⟩, some _ => .error (.valueUnexpected name)
    | some ⟨_, .value setting⟩, some value => .ok (.complete [setting value])
    | some ⟨_, .value setting⟩, none => .ok (.awaiting [] name setting)
  else readShort choices (arg.drop 1)

/-- Whether an argument is meant to be an option. -/
def isOption (arg : Text) : Bool :=
  arg.head? == some '-' && arg.length > 1

/-- What a command line sets, in order, and its arguments. -/
structure Line (α : Type) where
  settings : List α
  arguments : List Text

/-- Reads a command line. If options are not mixed with arguments, the first
    argument ends the options. -/
def readLine (choices : List (Choice α)) (mixed : Bool) :
    List Text → Except OptionError (Line α)
  | [] => .ok ⟨[], []⟩
  | arg :: rest =>
    if arg = "--" then .ok ⟨[], rest⟩
    else if isOption arg then
      match readOption choices arg with
      | .error error => .error error
      | .ok (.complete settings) => do
        let line ← readLine choices mixed rest
        return ⟨settings ++ line.settings, line.arguments⟩
      | .ok (.awaiting settings name setting) =>
        match rest with
        | [] => .error (.valueMissing name)
        | value :: rest => do
          let line ← readLine choices mixed rest
          return ⟨settings ++ setting value :: line.settings, line.arguments⟩
    else if mixed then do
      let line ← readLine choices mixed rest
      return ⟨line.settings, arg :: line.arguments⟩
    else .ok ⟨[], arg :: rest⟩

end KeyAudit.CommandLine
