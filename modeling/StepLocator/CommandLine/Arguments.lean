import StepLocator.Data.Value

/-!
Arguments of a command: options, each with the value that belongs to it, and the arguments that
count by their position. An option is a switch, or it takes a value, which is attached to it behind
an equals sign or comes next, whatever it looks like. Two dashes end the options.
-/
namespace StepLocator
namespace CommandLine

/-- How an option says what it says: by its name alone, or by a value. -/
inductive Form
  | switch (on : Bool)
  | valued
  deriving DecidableEq, Repr

structure Spelling (π : Type) where
  name : Text
  parameter : π
  form : Form

inductive Said
  | switched (on : Bool)
  | value (text : Text)
  deriving DecidableEq, Repr

inductive UsageFault
  | commandMissing
  | unknownCommand (name : Text)
  | unknownOption (name : Text)
  | valueMissing (name : Text)
  | valueUnexpected (name : Text)
  | argumentMissing (name : Text)
  | argumentUnexpected (text : Text)
  | notInteger (text : Text)
  | notNumber (text : Text)
  | notPath (text : Text)
  | settings (text : Text)
  deriving DecidableEq, Repr

def UsageFault.message : UsageFault → Text
  | .commandMissing => "Missing command."
  | .unknownCommand name => "No such command " ++ Text.quoted name ++ "."
  | .unknownOption name => "No such option: " ++ name
  | .valueMissing name => "Option " ++ Text.quoted name ++ " requires an argument."
  | .valueUnexpected name => "Option " ++ Text.quoted name ++ " does not take a value."
  | .argumentMissing name => "Missing argument " ++ Text.quoted name ++ "."
  | .argumentUnexpected text => "Got unexpected extra argument (" ++ text ++ ")"
  | .notInteger text => Text.quoted text ++ " is not a valid integer."
  | .notNumber text => Text.quoted text ++ " is not a valid float."
  | .notPath text => Text.quoted text ++ " is not a valid path."
  | .settings text => text

/-- The arguments of a command, options and others apart, each in order. -/
structure Arguments (π : Type) where
  options : List (π × Said)
  positional : List Text

namespace Arguments

def endMark : Text := "--"

/-- Whether an argument looks like an option: a dash, and something after it. -/
def looksLikeOption (text : Text) : Bool := text.head? == some '-' && text.length > 1

def splitValue (text : Text) : Text × Option Text :=
  match Text.cutAt '=' text with
  | some (name, value) => (name, some value)
  | none => (text, none)

def addOption {π : Type} (parameter : π) (said : Said) (a : Arguments π) : Arguments π :=
  { a with options := (parameter, said) :: a.options }

def addPositional {π : Type} (text : Text) (a : Arguments π) : Arguments π :=
  { a with positional := text :: a.positional }

def split {π : Type} (spellings : List (Spelling π)) :
    List Text → Except UsageFault (Arguments π)
  | [] => .ok ⟨[], []⟩
  | text :: rest =>
    if text = endMark then .ok ⟨[], rest⟩
    else if looksLikeOption text then
      let (name, attached) := splitValue text
      match spellings.find? (·.name = name) with
      | none => .error (.unknownOption name)
      | some option =>
        match option.form, attached, rest with
        | .switch on, none, rest =>
          (split spellings rest).map (addOption option.parameter (.switched on))
        | .switch _, some _, _ => .error (.valueUnexpected name)
        | .valued, some value, rest =>
          (split spellings rest).map (addOption option.parameter (.value value))
        | .valued, none, value :: rest =>
          (split spellings rest).map (addOption option.parameter (.value value))
        | .valued, none, [] => .error (.valueMissing name)
    else (split spellings rest).map (addPositional text)

/-- What is said about each parameter, in the order of first mention; what is said last counts. -/
def settle {π : Type} [BEq π] (options : List (π × Said)) : List (π × Said) :=
  options.foldl (fun settled (parameter, said) =>
    if settled.any (·.1 == parameter) then
      settled.map fun (p, s) => if p == parameter then (p, said) else (p, s)
    else settled ++ [(parameter, said)]) []

end Arguments
end CommandLine
end StepLocator
