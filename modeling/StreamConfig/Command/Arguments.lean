import StreamConfig.Schema.Kind

/-! # Command lines

What the words of a command line ask for. A command has flags, options that take a value, and
operands; nothing may be given twice but operands.

* `Command` — the four commands;
* `Command.ofArguments?` — the command that words ask for; `none` for wrong usage.
-/

namespace StreamConfig

/-- How the findings of a lint run are written. -/
inductive ReportStyle where
  | text
  | json
deriving DecidableEq, Repr

/-- How a pruned component is written. -/
inductive ValueStyle where
  | json
  | yaml
deriving DecidableEq, Repr

/-- What to do. -/
inductive Command where
  | lint (files : List String) (style : ReportStyle)
  | prune (kind : Kind) (removeTypeField removeDeprecated forExample : Bool) (style : ValueStyle)
      (file : String)
  | infer (kind : Kind) (default file : String)
  | list (kind : Option Kind)
deriving DecidableEq, Repr

namespace Command

/-! ## Words -/

/-- Which flags and options a command knows, by their names without hyphens. -/
structure Grammar where
  flags : List String
  options : List String

/-- What has been given. -/
structure Given where
  flags : List String
  options : List (String × String)
  operands : List String

def Given.none : Given := ⟨[], [], []⟩

def Given.option? (g : Given) (name : String) : Option String :=
  (g.options.find? fun o => o.1 == name).map (·.2)

def Given.withOption (g : Given) (name value : String) : Given :=
  { g with options := (name, value) :: g.options }

def Given.hasFlag (g : Given) (name : String) : Bool := g.flags.contains name

/-- A word that is an operand: it does not start with a hyphen, or is nothing but one. -/
def isOperand (word : String) : Bool :=
  match word.toList with
  | '-' :: _ :: _ => false
  | _ => true

/-- Splits a word at its first equals sign. -/
def splitValue (cs : List Char) : String × Option String :=
  let name := cs.takeWhile (· != '=')
  match cs.drop name.length with
  | [] => (String.ofList name, none)
  | _ :: value => (String.ofList name, some (String.ofList value))

/-- Sorts words into flags, options and operands. After two hyphens all words are operands. -/
def sortWords (grammar : Grammar) : Given → List String → Option Given
  | g, [] => some g
  | g, word :: rest =>
    match word.toList with
    | ['-', '-'] => some { g with operands := g.operands ++ rest }
    | '-' :: '-' :: cs =>
      let (name, value?) := splitValue cs
      if grammar.flags.contains name then
        if value?.isSome || g.flags.contains name then none
        else sortWords grammar { g with flags := name :: g.flags } rest
      else if grammar.options.contains name then
        if (g.option? name).isSome then none
        else match value?, rest with
          | some value, rest => sortWords grammar (g.withOption name value) rest
          | none, value :: rest =>
            if isOperand value then sortWords grammar (g.withOption name value) rest else none
          | none, [] => none
      else none
    | _ =>
      if isOperand word then sortWords grammar { g with operands := g.operands ++ [word] } rest
      else none

/-! ## Commands -/

/-- The option that every command knows. -/
def logLevel : String := "log-level"

/-- The option's value, `default` if it is not given; `none` if it is given with a wrong value. -/
def choice {α : Type} (g : Given) (name : String) (default : α) (read : String → Option α) :
    Option α :=
  match g.option? name with
  | none => some default
  | some word => read word

def reportStyle? : String → Option ReportStyle
  | "text" => some .text
  | "json" => some .json
  | _ => none

def valueStyle? : String → Option ValueStyle
  | "json" => some .json
  | "yaml" => some .yaml
  | _ => none

/-- The only operand. -/
def operand? (g : Given) : Option String :=
  match g.operands with
  | [file] => some file
  | _ => none

/-- The kind that an option must name. -/
def kind? (g : Given) : Option Kind := (g.option? "kind").bind Kind.ofName?

def lint? (g : Given) : Option Command := do
  let style ← choice g "format" .text reportStyle?
  if g.operands.isEmpty then none else some (.lint g.operands style)

def prune? (g : Given) : Option Command := do
  let style ← choice g "output" .yaml valueStyle?
  return .prune (← kind? g) (g.hasFlag "remove-type-field") (g.hasFlag "remove-deprecated")
    (g.hasFlag "for-example") style (← operand? g)

def infer? (g : Given) : Option Command := do
  return .infer (← kind? g) ((g.option? "default").getD "") (← operand? g)

def list? (g : Given) : Option Command := do
  let kind ← choice g "kind" none fun word => (Kind.ofName? word).map some
  if g.operands.isEmpty then some (.list kind) else none

/-- The commands by name: what they know, and how they are put together. -/
def table : List (String × Grammar × (Given → Option Command)) :=
  [("lint", ⟨[], ["format", logLevel]⟩, lint?),
   ("sanitise",
     ⟨["remove-type-field", "remove-deprecated", "for-example"], ["kind", "output", logLevel]⟩,
     prune?),
   ("infer", ⟨[], ["kind", "default", logLevel]⟩, infer?),
   ("list", ⟨[], ["kind", logLevel]⟩, list?)]

/-- Reads the words from the command's name on. -/
def ofWords? : List String → Option (Command × Option String)
  | [] => none
  | name :: rest =>
    match table.find? fun e => e.1 == name with
    | none => none
    | some (_, grammar, make) => do
      let g ← sortWords grammar Given.none rest
      return (← make g, g.option? logLevel)

/-- Reads all words; the log level may stand before the command's name too, and the one after it
wins. -/
def ofArguments? (words : List String) : Option (Command × String) := do
  let (outer, rest) ← match words with
    | word :: rest =>
      match word.toList with
      | '-' :: '-' :: cs =>
        let (name, value?) := splitValue cs
        if name != logLevel then none
        else match value?, rest with
          | some value, rest => some (some value, rest)
          | none, value :: rest => if isOperand value then some (some value, rest) else none
          | none, [] => none
      | _ => some (none, words)
    | [] => none
  let (command, inner) ← ofWords? rest
  return (command, (inner <|> outer).getD "warn")

end Command

end StreamConfig
