/-
# Command-line arguments

A command line names a command and its options.  An option takes its value from the next
argument or from behind an equals sign, stands at most once, and has a value that is not empty;
the next argument is no value when it starts with a dash and is more than a dash.  Arguments are
read from left to right, so a request for help counts unless a mistake stands before it.
-/
import ShaderBindings.FileSystem.Path

namespace ShaderBindings

/-- The options of a command. -/
structure Options where
  config? : Option Path
  schema? : Option Path
  descriptions? : Option Path
  outputDir? : Option Path
  docs? : Option Path
  /-- Overloads that no input tells apart are fatal. -/
  strict : Bool
deriving DecidableEq, Repr

/-- What a command line asks for. -/
inductive Invocation where
  | help
  | version
  | generate (o : Options)
  | check (o : Options)
deriving DecidableEq, Repr

namespace Options

def none : Options := ⟨.none, .none, .none, .none, .none, false⟩

/-- The options after one more with a value.  The option has to be known and new, and the value
must not be empty. -/
def set? (o : Options) (name value : String) : Option Options :=
  if value = "" then .none
  else
    match name, o with
    | "config", { config? := .none, .. } => some { o with config? := some ⟨value⟩ }
    | "schema", { schema? := .none, .. } => some { o with schema? := some ⟨value⟩ }
    | "descriptions", { descriptions? := .none, .. } =>
      some { o with descriptions? := some ⟨value⟩ }
    | "output-dir", { outputDir? := .none, .. } => some { o with outputDir? := some ⟨value⟩ }
    | "docs", { docs? := .none, .. } => some { o with docs? := some ⟨value⟩ }
    | _, _ => .none

end Options

namespace Invocation

def asksHelp (arg : String) : Bool := arg = "--help" || ['-', 'h'].isPrefixOf arg.toList

def asksVersion (arg : String) : Bool := arg = "--version" || ['-', 'V'].isPrefixOf arg.toList

/-- The argument may be the value of the option before it. -/
def isValue (arg : String) : Bool := arg = "-" || arg.toList.head? != some '-'

/-- The name and the value of an option that is written with an equals sign, or its name
alone. -/
def option? (arg : String) : Option (String × Option String) :=
  match arg.toList with
  | '-' :: '-' :: rest =>
    let name := rest.takeWhile fun c => c != '='
    match rest.dropWhile fun c => c != '=' with
    | [] => some (String.ofList name, none)
    | _ :: value => some (String.ofList name, some (String.ofList value))
  | _ => none

/-- The invocation of a command whose arguments are read from left to right.  `waiting` is the
option whose value is due. -/
def ofOptions? (command : Options → Invocation) :
    Options → Option String → List String → Option Invocation
  | o, none, [] => some (command o)
  | _, some _, [] => none
  | o, some name, value :: rest =>
    if isValue value then
      match o.set? name value with
      | some o => ofOptions? command o none rest
      | none => none
    else none
  | o, none, arg :: rest =>
    if asksHelp arg then some .help
    else if arg = "--" then (if rest.isEmpty then some (command o) else none)
    else
      match option? arg with
      | some ("strict", none) =>
        if o.strict then none else ofOptions? command { o with strict := true } none rest
      | some (name, some value) =>
        match o.set? name value with
        | some o => ofOptions? command o none rest
        | none => none
      | some (name, none) =>
        if ["config", "schema", "descriptions", "output-dir", "docs"].contains name then
          ofOptions? command o (some name) rest
        else none
      | none => none

def commands : List String := ["generate", "check", "help"]

/-- The arguments of the command `help` name one command, or none for help on all of them. -/
def namesCommand : List String → Bool
  | [] => true
  | [name] => commands.contains name
  | _ => false

/-- What the arguments ask for.  It is `none` when they are mistaken. -/
def ofArguments? : List String → Option Invocation
  | [] => some .help
  | "generate" :: rest => ofOptions? .generate Options.none none rest
  | "check" :: rest => ofOptions? .check Options.none none rest
  | "help" :: rest => if namesCommand rest then some .help else none
  | arg :: rest =>
    if asksHelp arg then some .help
    else if asksVersion arg then some .version
    else if arg = "--" && rest.isEmpty then some .help
    else none

end Invocation

end ShaderBindings
