/-!
# Arguments of the command line

Arguments are read from left to right, and the first one that is refused ends
the reading.  Options have a long name, and most have a letter.  Letters can be
joined behind one dash, and a value can be attached to its option or follow as
an argument of its own.  A request for the help or the version is met as soon
as it is reached.
-/

namespace FormulaMarkup

/-- Options without a value. -/
inductive Flag where
  | text
  | inline
  | block
  | chemistry
  | verbose
  | help
  | version
deriving Repr, DecidableEq

/-- Options with a value. -/
inductive Parameter where
  | formula
  | attributes
  | configuration
deriving Repr, DecidableEq

inductive CommandOption where
  | flag (flag : Flag)
  | parameter (parameter : Parameter)
deriving Repr, DecidableEq

def CommandOption.ofLetter? : Char → Option CommandOption
  | 'f' => some (.parameter .formula)
  | 't' => some (.flag .text)
  | 'i' => some (.flag .inline)
  | 'b' => some (.flag .block)
  | 'a' => some (.parameter .attributes)
  | 'c' => some (.parameter .configuration)
  | 'v' => some (.flag .verbose)
  | 'h' => some (.flag .help)
  | 'V' => some (.flag .version)
  | _ => none

def CommandOption.ofName? : String → Option CommandOption
  | "formula" => some (.parameter .formula)
  | "tex" => some (.flag .text)
  | "inline" => some (.flag .inline)
  | "block" => some (.flag .block)
  | "attr" => some (.parameter .attributes)
  | "config" => some (.parameter .configuration)
  | "mhchem" => some (.flag .chemistry)
  | "verbose" => some (.flag .verbose)
  | "help" => some (.flag .help)
  | "version" => some (.flag .version)
  | _ => none

structure Arguments where
  formula? : Option String := none
  configuration? : Option String := none
  /-- The attributes in the order in which they were given. -/
  attributes : List (String × String) := []
  text : Bool := false
  inline : Bool := false
  block : Bool := false
  chemistry : Bool := false
  verbose : Bool := false
deriving Repr, DecidableEq

/-- What the arguments ask for. -/
inductive Request where
  | convert (arguments : Arguments)
  | help
  | version
  | refused
deriving Repr, DecidableEq

/-- The state after an argument: either the arguments so far, an option that still needs its
value, or the request if it is settled already. -/
inductive Progress where
  | arguments (arguments : Arguments)
  | awaiting (parameter : Parameter) (arguments : Arguments)
  | settled (request : Request)
deriving Repr, DecidableEq

/-- Splits an attribute at its first equals sign.  The name must not be empty. -/
def splitAttribute (text : String) : Option (String × String) :=
  match text.toList.span (· != '=') with
  | ([], _) => none
  | (name, '=' :: value) => some (String.ofList name, String.ofList value)
  | _ => none

namespace Arguments

/-- Sets a flag, which may be given once. -/
def withFlag (arguments : Arguments) : Flag → Progress
  | .text =>
      if arguments.text then .settled .refused else .arguments { arguments with text := true }
  | .inline =>
      if arguments.inline then .settled .refused
      else .arguments { arguments with inline := true }
  | .block =>
      if arguments.block then .settled .refused else .arguments { arguments with block := true }
  | .chemistry =>
      if arguments.chemistry then .settled .refused
      else .arguments { arguments with chemistry := true }
  | .verbose =>
      if arguments.verbose then .settled .refused
      else .arguments { arguments with verbose := true }
  | .help => .settled .help
  | .version => .settled .version

/-- Sets a value.  Only attributes may be given repeatedly. -/
def withValue (arguments : Arguments) (parameter : Parameter) (value : String) : Progress :=
  match parameter with
  | .formula =>
      if arguments.formula?.isSome then .settled .refused
      else .arguments { arguments with formula? := some value }
  | .configuration =>
      if arguments.configuration?.isSome || value.isEmpty then .settled .refused
      else .arguments { arguments with configuration? := some value }
  | .attributes =>
      match splitAttribute value with
      | some pair => .arguments { arguments with attributes := arguments.attributes ++ [pair] }
      | none => .settled .refused

/-- Reads joined letters.  What follows the letter of an option with a value is its value, less
one equals sign. -/
def readLetters (arguments : Arguments) : List Char → Progress
  | [] => .arguments arguments
  | letter :: rest =>
      match CommandOption.ofLetter? letter with
      | none => .settled .refused
      | some (.flag flag) =>
          match arguments.withFlag flag with
          | .arguments changed => changed.readLetters rest
          | progress => progress
      | some (.parameter parameter) =>
          match rest with
          | [] => .awaiting parameter arguments
          | '=' :: value => arguments.withValue parameter (String.ofList value)
          | value => arguments.withValue parameter (String.ofList value)

/-- Reads a long name with or without an attached value. -/
def readName (arguments : Arguments) (cs : List Char) : Progress :=
  let name := String.ofList (cs.takeWhile (· != '='))
  match CommandOption.ofName? name, cs.dropWhile (· != '=') with
  | none, _ => .settled .refused
  | some (.flag flag), [] => arguments.withFlag flag
  | some (.flag _), _ => .settled .refused
  | some (.parameter parameter), [] => .awaiting parameter arguments
  | some (.parameter parameter), _ :: value =>
      arguments.withValue parameter (String.ofList value)

/-- Reads one argument that is not the value of the one before it. -/
def readArgument (arguments : Arguments) (argument : String) : Progress :=
  match argument.toList with
  | '-' :: '-' :: cs => arguments.readName cs
  | '-' :: c :: cs => arguments.readLetters (c :: cs)
  | _ => .settled .refused

/-- The request at the end of the arguments.  A formula stands in a line or in a block, not in
both. -/
def finish (arguments : Arguments) : Request :=
  if arguments.inline && arguments.block then .refused else .convert arguments

end Arguments

/-- Whether an argument is taken for an option where a value is expected. -/
def isOptionLike (argument : String) : Bool :=
  argument.startsWith "-" && argument != "-"

def readRequest (arguments : Arguments) : List String → Request
  | [] => arguments.finish
  | "--" :: rest => if rest.isEmpty then arguments.finish else .refused
  | argument :: rest =>
      match arguments.readArgument argument with
      | .settled request => request
      | .arguments changed => readRequest changed rest
      | .awaiting parameter changed =>
          match rest with
          | [] => .refused
          | value :: others =>
              if isOptionLike value then .refused
              else
                match changed.withValue parameter value with
                | .arguments complete => readRequest complete others
                | .settled request => request
                | .awaiting _ _ => .refused

/-- The request that a list of arguments makes. -/
def Request.ofArguments (arguments : List String) : Request := readRequest {} arguments

end FormulaMarkup
