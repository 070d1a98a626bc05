import GeoRules.Build.Run

/-!
# The command line

The program builds from the directory of `--dataPath` into the directory of `--output-dir` or `-o`,
and says what it compiled with `--verbose` or `-v`. The arguments are read from left to right: the
first one that is wrong, or that asks for help or the version, decides. No option may be given twice
and no value may be empty. A failed build is reported, but ends like a successful one.
-/

namespace GeoRules.CommandLine

open File

/-! ### Options -/

/-- What the arguments ask for. -/
inductive Request
  | build (config : Config) (verbose : Bool)
  | help
  | version
  | misuse
  deriving DecidableEq, Repr

/-- The options that take a value. -/
inductive ValueOption
  | dataPath
  | outputDir
  deriving DecidableEq, Repr

/-- The options that take no value. -/
inductive Switch
  | verbose
  | help
  | version
  deriving DecidableEq, Repr

/-- The options of both sorts. -/
inductive Flag
  | value (option : ValueOption)
  | switch (option : Switch)
  deriving DecidableEq, Repr

/-- The option of a long name. -/
def Flag.ofLong? (name : List Char) : Option Flag :=
  [("dataPath".toList, value .dataPath), ("output-dir".toList, value .outputDir),
    ("verbose".toList, switch .verbose), ("help".toList, switch .help),
    ("version".toList, switch .version)].lookup name

/-- The option of a letter. -/
def Flag.ofShort? (letter : Char) : Option Flag :=
  [('o', value .outputDir), ('v', switch .verbose), ('h', switch .help),
    ('V', switch .version)].lookup letter

/-- The options given so far. -/
structure Options where
  dataPath : Option String := none
  outputDir : Option String := none
  verbose : Bool := false
  deriving DecidableEq, Repr

namespace Options

/-- The build that the options ask for. -/
def request (o : Options) : Request :=
  .build
    { dataPath := o.dataPath.getD ({} : Config).dataPath
      outputDir := o.outputDir.getD ({} : Config).outputDir }
    o.verbose

/-- The options with one more value. -/
def set (o : Options) (value : String) : ValueOption → Except Request Options
  | .dataPath =>
    if o.dataPath = none ∧ value ≠ "" then .ok { o with dataPath := value } else .error .misuse
  | .outputDir =>
    if o.outputDir = none ∧ value ≠ "" then .ok { o with outputDir := value } else .error .misuse

/-- The options with one more switch. -/
def turnOn (o : Options) : Switch → Except Request Options
  | .verbose => if o.verbose then .error .misuse else .ok { o with verbose := true }
  | .help => .error .help
  | .version => .error .version

end Options

/-! ### Arguments -/

/-- Options so far, and the option whose value is the next argument, if one is waiting. -/
structure Progress where
  options : Options := {}
  waiting : Option ValueOption := none
  deriving DecidableEq, Repr

/-- An argument of letters: switches, and perhaps an option whose value is the rest of the argument,
an equals sign before it not counted. -/
def readShort (o : Options) : List Char → Except Request Progress
  | [] => .ok { options := o }
  | c :: cs => match Flag.ofShort? c with
    | none => .error .misuse
    | some (.switch s) => match o.turnOn s with
      | .error r => .error r
      | .ok o => readShort o cs
    | some (.value v) =>
      if cs = [] then .ok { options := o, waiting := v }
      else (o.set (String.ofList (if cs.head? = some '=' then cs.tail else cs)) v).map
        fun o => { options := o }

/-- An argument that is a long name, perhaps with a value behind an equals sign. -/
def readLong (o : Options) (body : List Char) : Except Request Progress :=
  let attached := body.dropWhile (· ≠ '=')
  match Flag.ofLong? (body.takeWhile (· ≠ '=')) with
  | none => .error .misuse
  | some (.switch s) =>
    if attached = [] then (o.turnOn s).map fun o => { options := o } else .error .misuse
  | some (.value v) =>
    if attached = [] then .ok { options := o, waiting := v }
    else (o.set (String.ofList attached.tail) v).map fun o => { options := o }

/-- Whether an argument is an option and not a value. -/
def isOption : List Char → Bool
  | '-' :: _ :: _ => true
  | _ => false

/-- One argument. -/
def readArgument (p : Progress) (argument : String) : Except Request Progress :=
  match p.waiting with
  | some v =>
    if isOption argument.toList then .error .misuse
    else (p.options.set argument v).map fun o => { options := o }
  | none => match argument.toList with
    | '-' :: '-' :: body => readLong p.options body
    | '-' :: c :: cs => readShort p.options (c :: cs)
    | _ => .error .misuse

/-- What the arguments ask for after those that were read. Two dashes end the options, and nothing
may follow them. -/
def requestAfter (p : Progress) : List String → Request
  | [] => if p.waiting = none then p.options.request else .misuse
  | argument :: arguments =>
    if argument = "--" then
      if p.waiting = none ∧ arguments = [] then p.options.request else .misuse
    else match readArgument p argument with
      | .error r => r
      | .ok p => requestAfter p arguments

/-- What the arguments ask for. -/
def request (arguments : List String) : Request := requestAfter {} arguments

/-! ### Answers -/

/-- The exit status and the standard output of the program, and the file system after it. -/
structure Answer where
  status : Nat
  output : String
  fs : FileSystem
  events : List Event := []

/-- The line on a compilation. -/
def summary (c : Compilation) : String :=
  "Compiled " ++ Text.natText c.sites.length ++ " site lists (" ++ Text.natText c.domainCount ++
    " domains), " ++ Text.natText c.ips.length ++ " IP lists (" ++ Text.natText c.rangeCount ++
    " CIDRs)"

/-- What is said about the result of a build. -/
def report (verbose : Bool) : Except BuildError Compilation → String
  | .ok c => if verbose then Text.ofLines [summary c] else ""
  | .error e => Text.ofLines ["Failed: " ++ e.message]

/-- How the program is used. -/
def usage : String := Text.ofLines [
  "Compile rule lists into v2site.dat / v2ip.dat",
  "",
  "Usage: v2dat-gen [OPTIONS]",
  "",
  "Options:",
  "      --dataPath <DIR>    Directory holding the rule list files [default: ./]",
  "  -o, --output-dir <DIR>  Directory the outputs are written to [default: .]",
  "  -v, --verbose           Verbose output",
  "  -h, --help              Print help",
  "  -V, --version           Print version"]

/-- The answer of the program to its arguments. -/
def answer (arguments : List String) (fs : FileSystem) : Answer :=
  match request arguments with
  | .help => ⟨0, usage, fs, []⟩
  | .version => ⟨0, Text.ofLines ["v2dat-gen 0.1.0"], fs, []⟩
  | .misuse => ⟨2, "", fs, []⟩
  | .build config verbose =>
    let outcome := run config fs
    ⟨0, report verbose outcome.result, outcome.fs, outcome.events⟩

end GeoRules.CommandLine
