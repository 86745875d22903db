import Telemetry.Viewer.Listing

namespace Telemetry.Viewer

inductive Command
  | all (format : Format)
  | today (format : Format)
  | month (format : Format)
  | pending
  | stats
  deriving DecidableEq, Repr

inductive Topic
  | viewer
  | command (name : List Char)
  | help
  deriving DecidableEq, Repr

inductive Request
  | run (directory : Option (List Char)) (command : Command)
  | help (topic : Topic)
  | misuse
  deriving DecidableEq, Repr

abbrev Argument := List Char

structure Choice where
  long : List Char
  short : Char
  mayBeEmpty : Bool

def directoryChoice : Choice := ⟨"dir".toList, 'd', false⟩

def formatChoice : Choice := ⟨"format".toList, 'f', true⟩

inductive Role
  | help
  | attached (value : List Char)
  | awaiting
  | operand
  | unknown
  deriving DecidableEq, Repr

def behind? (front s : List Char) : Option (List Char) :=
  if front.isPrefixOf s then some (s.drop front.length) else none

def Choice.role (c : Choice) (arg : Argument) : Role :=
  if arg = '-' :: '-' :: c.long then .awaiting
  else match behind? ('-' :: '-' :: c.long ++ ['=']) arg with
    | some value => .attached value
    | none =>
      match behind? ['-', c.short] arg with
      | some [] => .awaiting
      | some ('=' :: value) => .attached value
      | some value => .attached value
      | none => .unknown

def role (choice : Option Choice) (arg : Argument) : Role :=
  if arg.head? ≠ some '-' ∨ arg = ['-'] ∨ arg = ['-', '-'] then .operand
  else if arg = "--help".toList ∨ (behind? ['-', 'h'] arg).isSome then .help
  else match choice with
    | some c => c.role arg
    | none => .unknown

structure Given where
  value : Option (List Char)
  waiting : Option (List Char)
  deriving DecidableEq, Repr

namespace Given

def nothing : Given := ⟨none, none⟩

def accept? (choice : Option Choice) (g : Given) (value : List Char) : Option Given :=
  if g.value.isNone && (!value.isEmpty || choice.all Choice.mayBeEmpty) then some ⟨some value, none⟩
  else none

def settle? (choice : Option Choice) (g : Given) : Option Given :=
  match g.waiting with
  | none => some g
  | some value => g.accept? choice value

end Given

inductive Reading (α : Type)
  | done (a : α)
  | help
  | misuse
  deriving DecidableEq, Repr

/-- Reads the options in front: what they give to the choice, and the arguments from the first
operand on. What looks like an option is no value. -/
def readOptions (choice : Option Choice) (g : Given) :
    List Argument → Reading (Given × List Argument)
  | [] => .done (g, [])
  | arg :: rest =>
    match role choice arg, g.settle? choice with
    | .operand, _ => .done (g, arg :: rest)
    | .help, some _ => .help
    | .attached value, some g =>
      match g.accept? choice value with
      | some g => readOptions choice g rest
      | none => .misuse
    | .awaiting, some g =>
      match rest with
      | [] => .misuse
      | value :: rest =>
        if role none value = .operand ∧ value ≠ ['-', '-'] then
          readOptions choice { g with waiting := some value } rest
        else .misuse
    | _, _ => .misuse

def listing? (name : Argument) : Option (Format → Command) :=
  if name = "all".toList then some .all
  else if name = "today".toList then some .today
  else if name = "month".toList then some .month
  else none

def plainCommand? (name : Argument) : Option Command :=
  if name = "pending".toList then some .pending
  else if name = "stats".toList then some .stats
  else none

/-- What a command's name and its arguments ask for, where `given` is what stands in front of them.
A command takes no operands. -/
def readCommand (given : Given) (name : Argument) (args : List Argument) : Request :=
  let finish (choice : Option Choice) (command : Option (List Char) → Command) : Request :=
    match readOptions choice .nothing args with
    | .done (g, rest) =>
      match g.settle? choice, given.settle? (some directoryChoice) with
      | some g, some given =>
        if rest = [] ∨ rest = [['-', '-']] then .run given.value (command g.value) else .misuse
      | _, _ => .misuse
    | .help => .help (.command name)
    | .misuse => .misuse
  match listing? name with
  | some command => finish (some formatChoice) fun made =>
      command ((made.map Format.ofName).getD .table)
  | none =>
    match plainCommand? name with
    | some command => finish none fun _ => command
    | none => .misuse

def readTopic : List Argument → Request
  | [] => .help .viewer
  | [name] =>
    if name = "help".toList then .help .help
    else if (listing? name).isSome ∨ (plainCommand? name).isSome then .help (.command name)
    else .misuse
  | _ => .misuse

def Request.read (args : List Argument) : Request :=
  match readOptions (some directoryChoice) .nothing args with
  | .help => .help .viewer
  | .misuse => .misuse
  | .done (_, []) => .misuse
  | .done (given, name :: rest) =>
    if name = "help".toList then readTopic rest else readCommand given name rest

end Telemetry.Viewer
