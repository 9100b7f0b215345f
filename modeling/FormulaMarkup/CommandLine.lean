import FormulaMarkup.BlankCharacters
import FormulaMarkup.CommandArguments
import FormulaMarkup.ConfigurationFile

/-!
# The command line

A run is a function of the arguments, of the files and of the standard input.
The arguments are looked at first, then the configuration file, and then the
formula, so the first of them that is at fault decides how the run fails.
Blank characters at the end of the formula are left out.
-/

namespace FormulaMarkup

/-- Why a file cannot be read. -/
inductive ReadFault where
  | notFound
  | isDirectory
  | denied
deriving Repr, DecidableEq

def ReadFault.description : ReadFault → String
  | .notFound => "No such file or directory (os error 2)"
  | .isDirectory => "Is a directory (os error 21)"
  | .denied => "Permission denied (os error 13)"

def undecodable : String := "stream did not contain valid UTF-8"

/-- Why a run has failed. -/
inductive Failure where
  | usage
  | configuration
  | reading (message : String)
  | conversion (error : FormulaError)

namespace Failure

def status : Failure → Nat
  | .usage => 2
  | .configuration => 1
  | .reading _ => 1
  | .conversion _ => 2

def report : Failure → String
  | .usage => "error: invalid arguments\n\nFor more information, try \x27--help\x27.\n"
  | .configuration => "Error: TOML parsing error\n"
  | .reading message => "Error: " ++ message ++ "\n"
  | .conversion error => error.headline ++ "\n"

end Failure

/-- What a run leaves behind. -/
structure Outcome where
  status : Nat
  output : String
  failure? : Option Failure

namespace Outcome

def success (output : String) : Outcome := ⟨0, output, none⟩

def failed (failure : Failure) : Outcome := ⟨failure.status, "", some failure⟩

end Outcome

def versionText : String := "texvc-cli 0.1.0\n"

def helpText : String :=
  "Converts texvc-style LaTeX formulas to canonical TeX or MathML\n\n" ++
  "Usage: texvc [OPTIONS]\n\n" ++
  "Options:\n" ++
  "  -f, --formula <FORMULA>  Specifies a single LaTeX formula; read from stdin if absent\n" ++
  "  -t, --tex                Output the canonical TeX text instead of MathML\n" ++
  "  -i, --inline             Sets the display style for the formula to \"inline\"\n" ++
  "  -b, --block              Sets the display style for the formula to \"block\"\n" ++
  "  -a, --attr <KEY=VALUE>   Adds an attribute to the rendered formula; can be repeated\n" ++
  "  -c, --config <FILE>      Loads the converter configuration from a TOML file\n" ++
  "      --mhchem             Allows chemistry notation with \\ce\n" ++
  "  -v, --verbose            Logs diagnostics to stderr\n" ++
  "  -h, --help               Print help\n" ++
  "  -V, --version            Print version\n"

/-- The settings of the configuration file, if there is one. -/
def Arguments.settings (arguments : Arguments) (files : String → Except ReadFault ByteArray) :
    Except Failure Settings :=
  match arguments.configuration? with
  | none => .ok {}
  | some path =>
      match files path with
      | .error fault => .error (.reading ("I/O error: " ++ fault.description))
      | .ok bytes =>
          match String.fromUTF8? bytes with
          | none => .error (.reading ("I/O error: " ++ undecodable))
          | some text =>
              match Settings.ofText text with
              | none => .error .configuration
              | some settings => .ok settings

/-- The formula among the arguments, or else the standard input. -/
def Arguments.source (arguments : Arguments) (input : ByteArray) : Except Failure String :=
  match arguments.formula? with
  | some formula => .ok formula
  | none =>
      match String.fromUTF8? input with
      | some text => .ok text
      | none => .error (.reading undecodable)

/-- Converts the formula that the arguments name. -/
def Arguments.run (arguments : Arguments) (files : String → Except ReadFault ByteArray)
    (input : ByteArray) : Except Failure String :=
  match arguments.settings files with
  | .error failure => .error failure
  | .ok settings =>
      match arguments.source input with
      | .error failure => .error failure
      | .ok formula =>
          let conversion :=
            { settings with chemistry := settings.chemistry || arguments.chemistry }.convert
              (dropTrailingBlanks formula)
              (if arguments.text then .text else .markup)
              (if arguments.block then .block else .inline)
              (.ofList arguments.attributes)
          match conversion with
          | .error error => .error (.conversion error)
          | .ok output => .ok output

def runCommandLine (arguments : List String) (files : String → Except ReadFault ByteArray)
    (input : ByteArray) : Outcome :=
  match Request.ofArguments arguments with
  | .help => .success helpText
  | .version => .success versionText
  | .refused => .failed .usage
  | .convert arguments =>
      match arguments.run files input with
      | .error failure => .failed failure
      | .ok output => .success (output ++ "\n")

end FormulaMarkup
