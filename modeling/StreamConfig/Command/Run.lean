import StreamConfig.Command.Arguments
import StreamConfig.Command.LogFilter
import StreamConfig.Document.Format
import StreamConfig.Document.Lint
import StreamConfig.Json.Writer
import StreamConfig.Prune
import StreamConfig.Text.Pad
import StreamConfig.Yaml.Writer

/-! # Running commands

What a command writes and how it ends, given the files that it can read. All commands know the
built-in components.

* `Outcome` — the exit code and the two outputs;
* `Command.run` — one command;
* `runArguments` — a whole command line.
-/

namespace StreamConfig

/-- The files that can be read as text. -/
abbrev Files := String → Option String

/-- How a command ends. -/
structure Outcome where
  exit : Nat
  output : String
  error : String
deriving DecidableEq, Repr

namespace Outcome

def success (output : String) : Outcome := ⟨0, output, ""⟩

/-- Ends with a report; what has been written before stays. -/
def failure (output report : String) : Outcome := ⟨1, output, "Error: " ++ report⟩

def wrongUsage : Outcome := ⟨2, "", ""⟩

/-- Ends without a report. -/
def brokenOff : Outcome := ⟨101, "", ""⟩

end Outcome

/-! ## Loading -/

/-- Why a file is no document. -/
inductive LoadError where
  | unreadable (path : String)
  | empty (path : String)
  | malformed (path : String)
deriving DecidableEq, Repr

def LoadError.message : LoadError → String
  | .unreadable path => "read config file " ++ path
  | .empty path => "config file " ++ path ++ " is empty"
  | .malformed path => "bad config file " ++ path

/-- The source text and the value of the document in a file. -/
def Files.load (files : Files) (path : String) : Except LoadError (String × Value) :=
  match files path with
  | none => .error (.unreadable path)
  | some source =>
    if Text.isBlankText source.toList then .error (.empty path)
    else match parseDocument (Format.ofPath? path) source with
      | .ok v => .ok (source, v)
      | .error _ => .error (.malformed path)

/-! ## Linting files -/

/-- A number as a value. -/
def Value.ofNat (n : Nat) : Value := .number (.int n)

/-- A finding as a value. -/
def Finding.toValue (f : Finding) : Value :=
  .object [("line", .ofNat f.position.line), ("column", .ofNat f.position.column),
    ("level", .string f.level.name), ("what", .string f.text)]

/-- A finding as a line of text. -/
def Finding.inFile (path : String) (f : Finding) : String :=
  path ++ ":" ++ toString f.position.line ++ ":" ++ toString f.position.column ++ ": " ++
    f.level.name ++ ": " ++ f.text

/-- The findings for a document among the built-in components. -/
def builtinFindings (source : String) (v : Value) : List Finding :=
  (lintDocument source v Builtin.registry).1

/-- What a lint run has gathered. -/
structure Tally where
  /-- the findings as lines of text -/
  lines : String
  /-- the findings by path, in the order in which the paths were first met -/
  report : Entries
  errors : Nat

def Tally.start : Tally := ⟨"", [], 0⟩

/-- Adds the findings for one file. -/
def Tally.add (t : Tally) (path : String) (fs : List Finding) : Tally :=
  { lines := fs.foldl (fun text f => text ++ f.inFile path ++ "\n") t.lines
    report := Entries.insert t.report path (.array (fs.map Finding.toValue))
    errors := t.errors + (fs.filter Finding.isError).length }

/-- Lints files in order, up to the first that does not load. -/
def lintFiles (files : Files) : Tally → List String → Tally × Option LoadError
  | t, [] => (t, none)
  | t, path :: rest =>
    match files.load path with
    | .error e => (t, some e)
    | .ok (source, v) => lintFiles files (t.add path (builtinFindings source v)) rest

/-- Ends a lint run: a report in JSON is written only if every file loads. -/
def lintOutcome (style : ReportStyle) : Tally × Option LoadError → Outcome
  | (t, some e) =>
    .failure (match style with
      | .text => t.lines
      | .json => "") e.message
  | (t, none) =>
    let output := match style with
      | .text => t.lines
      | .json => Json.pretty (.object t.report) ++ "\n"
    if t.errors = 0 then .success output
    else .failure output (toString t.errors ++ " lint error(s) found")

/-! ## The other commands -/

/-- A cause as reports show it: its lines are indented by the length of the lead, which stands in
front of the first one. -/
def indentedCause (lead cause : String) : String :=
  let indent := '\n' :: List.replicate lead.length ' '
  "\n" ++ lead ++
    String.ofList (cause.toList.flatMap fun c => if c == '\n' then indent else [c])

/-- A failure inside a context, as reports show it. Several causes, each the cause of the one before
it, are numbered. -/
def causedBy (context : String) : (causes : List String) → String
  | [] => context
  | [cause] => context ++ "\n\nCaused by:" ++ indentedCause "    " cause
  | causes =>
    context ++ "\n\nCaused by:" ++ String.join (causes.zipIdx.map fun (cause, n) =>
      indentedCause (Text.alignRight 5 (toString n) ++ ": ") cause)

def runPrune (files : Files) (policy : Policy) (style : ValueStyle) (kind : Kind) (file : String) :
    Outcome :=
  match files.load file with
  | .error e => .failure "" e.message
  | .ok (_, v) =>
    match (pruneComponent policy resolve kind v Builtin.registry).1 with
    | .error e =>
      .failure "" (causedBy ("sanitise " ++ kind.name ++ " config " ++ file) [e.message])
    | .ok w =>
      .success (match style with
        | .json => Json.pretty w ++ "\n"
        | .yaml => Yaml.write w)

def runInfer (files : Files) (kind : Kind) (default file : String) : Outcome :=
  match files.load file with
  | .error e => .failure "" e.message
  | .ok (_, v) =>
    match (resolve kind default v Builtin.registry).1 with
    | .error e => .failure "" (causedBy ("infer " ++ kind.name ++ " type of " ++ file) [e.message])
    | .ok c => .success (c.name ++ " (" ++ c.kind.name ++ ", " ++ c.status.name ++ ")\n")

/-- A component as a line of the list. -/
def Component.listed (c : Component) : String :=
  Text.alignLeft 10 c.kind.name ++ " " ++ Text.alignLeft 14 c.name ++ " " ++
    Text.alignLeft 12 c.status.name ++ " " ++ c.summary ++
    (if c.isPlugin then " [plugin]" else "") ++ "\n"

def runList (kind : Option Kind) : Outcome :=
  let kinds := kind.elim Kind.all ([·])
  .success (String.join
    (kinds.flatMap fun k => (Builtin.registry.components k).map Component.listed))

/-- Runs one command. -/
def Command.run (files : Files) : Command → Outcome
  | .lint paths style => lintOutcome style (lintFiles files Tally.start paths)
  | .prune kind removeTypeField removeDeprecated forExample style file =>
    runPrune files ⟨removeTypeField, removeDeprecated, forExample, none, .builtin⟩ style kind file
  | .infer kind default file => runInfer files kind default file
  | .list kind => runList kind

/-! ## Command lines -/

/-- What an unknown level is told. -/
def unknownLevel : String :=
  "error parsing level filter: expected one of \"off\", \"error\", \"warn\", \"info\", " ++
    "\"debug\", \"trace\", or a number 0-5"

/-- What a pattern with a boundary of words in Unicode is told. -/
def unsupportedBoundary : String :=
  "unsupported regex feature for DFAs: cannot build DFAs for regexes with Unicode word " ++
    "boundaries; switch to ASCII word boundaries, or heuristically enable Unicode word " ++
    "boundaries or use a different regex engine"

/-- Why a pattern cannot be used: each text has the next one as its cause. -/
def Pattern.Refusal.causes : Pattern.Refusal → List String
  | .malformed report => ["error building NFA", "error parsing regex", report]
  | .boundary => [unsupportedBoundary]

/-- How a command line ends whose log filter cannot be used. -/
def LogFilterError.outcome : LogFilterError → Outcome
  | .directive => .failure "" "invalid filter directive"
  | .level => .failure "" (causedBy unknownLevel [unknownLevel])
  | .place => .brokenOff
  | .field why =>
    .failure "" (causedBy ("invalid field filter: " ++ why.causes.headD "") why.causes)

/-- Runs a whole command line. -/
def runArguments (files : Files) (words : List String) : Outcome :=
  match Command.ofArguments? words with
  | none => .wrongUsage
  | some (command, filter) =>
    match LogFilter.check filter with
    | .error e => e.outcome
    | .ok () => command.run files

end StreamConfig
