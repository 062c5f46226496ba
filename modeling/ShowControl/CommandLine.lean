/-!
# Command lines

A grammar lists the options, values and commands that a program accepts; `Grammar.read` reads
arguments by it. An option takes its value from the next argument or behind an equals sign, short
flags may be written together, and two dashes end the options. A value is checked only when the
next option or value begins or the arguments end, so of two faults it is the earlier in that order
that is reported.
-/

namespace ShowControl.CommandLine

/-- Why arguments are not accepted, or what they ask for in place of running. -/
inductive Refusal where
  | unknownArgument
  /-- An option has no value, or an empty one where that is none. -/
  | invalidValue
  /-- A flag has a value. -/
  | tooManyValues
  /-- A value does not have the form that is wanted. -/
  | valueValidation
  /-- An option is given twice, or together with one that excludes it. -/
  | argumentConflict
  | missingRequiredArgument
  | invalidSubcommand
  | missingSubcommand
  | displayHelp
  | displayVersion
  /-- There are no arguments where some are needed. -/
  | displayHelpOnMissingArgumentOrSubcommand
  deriving DecidableEq, Repr

/-- Says of a value why it is refused, if it is. -/
abbrev Check := String → Option Refusal

/-- What an option does. -/
inductive Effect where
  | flag
  | value (check : Check)
  | help
  | version

/-- An option by its names. -/
structure Switch where
  long : String
  short : Option Char := none
  effect : Effect

/-- What a program accepts. -/
structure Grammar where
  switches : List Switch
  /-- The checks of the values that are wanted. -/
  values : List Check := []
  /-- The commands, one of which is wanted if there are any. -/
  commands : List String := []

/-- Accepts every value. -/
def anyText : Check := fun _ ↦ none

/-- Accepts every value but the empty one. -/
def nonEmpty : Check := fun text ↦ if text.isEmpty then some .invalidValue else none

/-- Accepts the values that a reader reads. -/
def readBy {α : Type} (read? : String → Option α) : Check := fun text ↦
  if (read? text).isSome then none else some .valueValidation

/-- What is still to be checked. -/
inductive Pending where
  /-- An option and its value, which may be still to come. -/
  | option (switch : Switch) (value : Option String)
  /-- A value that stands alone. -/
  | value (check : Check) (text : String)

/-- What has been read of some arguments. -/
structure Arguments where
  /-- The options that are settled, with their values, last first. -/
  given : List (String × Option String) := []
  /-- What was read last, if it is still to be checked. -/
  pending : Option Pending := none
  /-- The values that are settled, last first. -/
  values : List String := []
  /-- No option follows. -/
  ended : Bool := false

namespace Arguments

variable (a : Arguments)

/-- The option is among the settled ones. -/
def has (long : String) : Bool := a.given.any fun entry ↦ entry.1 = long

/-- The value of a settled option. -/
def value? (long : String) : Option String :=
  (a.given.find? fun entry ↦ entry.1 = long).bind Prod.snd

/-- The next argument is the value of an option. -/
def wantsValue : Bool :=
  match a.pending with
  | some (.option _ none) => true
  | _ => false

/-- How many values have been read. -/
def taken : Nat :=
  match a.pending with
  | some (.value _ _) => a.values.length + 1
  | _ => a.values.length

/-- Checks what is pending: of an option that it has a value and was not given before, and of the
value of either kind that it is accepted. -/
def settle : Except Refusal Arguments :=
  match a.pending with
  | none => .ok a
  | some (.option _ none) => .error .invalidValue
  | some (.option switch (some value)) =>
    if a.has switch.long then .error .argumentConflict
    else
      let done := { a with given := (switch.long, some value) :: a.given, pending := none }
      match switch.effect with
      | .value check =>
        match check value with
        | some refusal => .error refusal
        | none => .ok done
      | _ => .ok done
  | some (.value check text) =>
    match check text with
    | some refusal => .error refusal
    | none => .ok { a with values := text :: a.values, pending := none }

/-- Reads an option that takes no value. -/
def raise (switch : Switch) : Except Refusal Arguments := do
  let a ← a.settle
  match switch.effect with
  | .help => .error .displayHelp
  | .version => .error .displayVersion
  | _ =>
    if a.has switch.long then .error .argumentConflict
    else .ok { a with given := (switch.long, none) :: a.given }

/-- Reads an option, with the value that is attached to it if there is one. -/
def take (switch : Switch) (attached : Option String) : Except Refusal Arguments :=
  match switch.effect, attached with
  | .value _, value => do
    let a ← a.settle
    let a := { a with pending := some (.option switch value) }
    if value.isSome then a.settle else .ok a
  | _, some _ => .error .tooManyValues
  | _, none => a.raise switch

end Arguments

namespace Grammar

variable (g : Grammar)

/-- The option with this long name. -/
def long? (name : String) : Option Switch := g.switches.find? fun switch ↦ switch.long = name

/-- The option with this short name. -/
def short? (name : Char) : Option Switch :=
  g.switches.find? fun switch ↦ switch.short = some name

/-- Reads short options that are written together. -/
def takeShort (a : Arguments) : List Char → Except Refusal Arguments
  | [] => .ok a
  | c :: rest =>
    match g.short? c with
    | none => .error .unknownArgument
    | some switch =>
      match switch.effect with
      | .value _ =>
        let attached := match rest with
          | [] => none
          | '=' :: value => some (String.ofList value)
          | value => some (String.ofList value)
        a.take switch attached
      | _ => do takeShort (← a.raise switch) rest

/-- Reads a value. One that is not wanted is taken for a command where there are commands, unless it
is one behind two dashes. -/
def takeValue (a : Arguments) (text : String) : Except Refusal Arguments :=
  match g.values[a.taken]? with
  | some check =>
    match a.settle with
    | .ok a => .ok { a with pending := some (.value check text) }
    | .error refusal => .error refusal
  | none =>
    if g.commands.isEmpty ∨ (a.ended ∧ (text = "help" ∨ text ∈ g.commands)) then
      .error .unknownArgument
    else .error .invalidSubcommand

/-- Reads one argument that is no command. -/
def step (a : Arguments) (argument : String) : Except Refusal Arguments :=
  if a.ended then g.takeValue a argument
  else
    match argument.toList with
    | ['-', '-'] => .ok { a with ended := true }
    | '-' :: '-' :: text =>
      let name := String.ofList (text.takeWhile (· ≠ '='))
      let attached := match text.dropWhile (· ≠ '=') with
        | [] => none
        | _ :: value => some (String.ofList value)
      match g.long? name with
      | some switch => a.take switch attached
      | none => .error .unknownArgument
    | '-' :: c :: rest => g.takeShort a (c :: rest)
    | _ =>
      match a.pending with
      | some (.option switch none) =>
        .ok { a with pending := some (.option switch (some argument)) }
      | _ => g.takeValue a argument

/-- Ends the arguments: the values come out in order. -/
def finish (a : Arguments) : Except Refusal Arguments := do
  let a ← a.settle
  if a.values.length < g.values.length then .error .missingRequiredArgument
  return { a with values := a.values.reverse }

/-- Reads arguments up to the first command: what came before it, and the command with what comes
after it. -/
def upToCommand (a : Arguments) :
    List String → Except Refusal (Arguments × Option (String × List String))
  | [] => .ok (a, none)
  | argument :: rest =>
    if !a.ended ∧ !a.wantsValue ∧ !g.commands.isEmpty
        ∧ (argument = "help" ∨ argument ∈ g.commands) then
      .ok (a, some (argument, rest))
    else
      match g.step a argument with
      | .ok a => upToCommand a rest
      | .error refusal => .error refusal

/-- Reads arguments that hold no command. -/
def read (arguments : List String) : Except Refusal Arguments := do
  let (a, _) ← g.upToCommand {} arguments
  g.finish a

/-- Answers a request for help on a command. No command has commands of its own. -/
def helpOn : List String → Refusal
  | [] => .displayHelp
  | [command] =>
    if command = "help" ∨ command ∈ g.commands then .displayHelp else .invalidSubcommand
  | _ => .invalidSubcommand

/-- Reads arguments with one command, whose own arguments have a grammar of their own: the options
before the command, the command, and its arguments. The faults behind the command come first. -/
def readCommand (inner : String → Grammar) (arguments : List String) :
    Except Refusal (Arguments × String × Arguments) := do
  match ← g.upToCommand {} arguments with
  | (_, some ("help", rest)) => .error (g.helpOn rest)
  | (a, some (command, rest)) =>
    let own ← (inner command).read rest
    let a ← g.finish a
    return (a, command, own)
  | (a, none) =>
    let a ← g.finish a
    if a.given.isEmpty then .error .displayHelpOnMissingArgumentOrSubcommand
    else .error .missingSubcommand

end Grammar

end ShowControl.CommandLine
