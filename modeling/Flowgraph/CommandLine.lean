import Flowgraph.Files
import Flowgraph.Pipeline

/-! The command line: one stage of the compiler at a time, from files to files. -/

namespace Flowgraph.CommandLine

open Json

/-- What to compile a template from and where to put the result. -/
structure TemplateArgs where
  input : String
  out : String
  catalog : Option String
  user : Option String
  connections : Option String
  answers : Option String
  defaults : Option String
  diagnostics : Option String

/-- What to lower an executable from and where to put the result. -/
structure DagArgs where
  input : String
  out : String
  catalog : Option String
  layout : Option LayoutKind
  uiDefaults : Option String
  diagnostics : Option String

inductive Command where
  | template (args : TemplateArgs)
  | dag (args : DagArgs)

/-! ### Arguments -/

/-- Skips the flag for more log output, which may be given once at each level. -/
def skipVerbose : List String → List String
  | "-v" :: rest => rest
  | "--verbose" :: rest => rest
  | args => args

/-- An option name and its value, if they stand in one word. -/
def assignment? (word : String) : Option (String × String) :=
  let cs := word.toList
  match cs.dropWhile (· ≠ '=') with
  | '=' :: value => some (String.ofList (cs.takeWhile (· ≠ '=')), String.ofList value)
  | _ => none

/-- A word that can only be an option. -/
def looksLikeOption (word : String) : Bool := word.toList.head? == some '-' && word ≠ "-"

/-- The options of a stage, each given once at most; nothing else may stand among them. -/
def options? (known : List String) (seen : Table String) (verbose : Bool) :
    List String → Option (Table String)
  | [] => some seen
  | ["--"] => some seen
  | word :: rest =>
    if word = "-v" ∨ word = "--verbose" then
      if verbose then none else options? known seen true rest
    else match assignment? word with
      | some (name, value) =>
        if known.contains name && (Table.entry? seen name).isNone then
          options? known (Table.set name value seen) verbose rest
        else none
      | none => match rest with
        | value :: rest =>
          if known.contains word && (Table.entry? seen word).isNone && !looksLikeOption value then
            options? known (Table.set word value seen) verbose rest
          else none
        | [] => none

def layout? (name : String) : Option LayoutKind :=
  [("dagre", LayoutKind.dagre), ("elk", .elk), ("manual", .manual)].lookup name

def templateArgs? (args : List String) : Option TemplateArgs := do
  let given ← options? ["--in", "--out", "--catalog", "--user", "--connections", "--answers",
    "--defaults", "--diagnostics"] [] false args
  let input ← Table.entry? given "--in"
  let out ← Table.entry? given "--out"
  pure {
    input := input
    out := out
    catalog := Table.entry? given "--catalog"
    user := Table.entry? given "--user"
    connections := Table.entry? given "--connections"
    answers := Table.entry? given "--answers"
    defaults := Table.entry? given "--defaults"
    diagnostics := Table.entry? given "--diagnostics" }

def dagArgs? (args : List String) : Option DagArgs := do
  let given ← options? ["--in", "--out", "--catalog", "--layout", "--ui-defaults",
    "--diagnostics"] [] false args
  let input ← Table.entry? given "--in"
  let out ← Table.entry? given "--out"
  let layout ← match Table.entry? given "--layout" with
    | some name => (layout? name).map some
    | none => some none
  pure {
    input := input
    out := out
    catalog := Table.entry? given "--catalog"
    layout := layout
    uiDefaults := Table.entry? given "--ui-defaults"
    diagnostics := Table.entry? given "--diagnostics" }

/-- The command that the arguments spell. -/
def command? (argv : List String) : Option Command :=
  match skipVerbose argv with
  | "compile" :: rest => match skipVerbose rest with
    | "template" :: args => (templateArgs? args).map .template
    | "dag" :: args => (dagArgs? args).map .dag
    | _ => none
  | _ => none

/-! ### Running -/

/-- What a command leaves behind. What it prints also tells the time it took. -/
structure Result where
  exit : Nat
  stdout : (elapsed : String) → String
  stderr : String
  files : Files

/-- Ends with an error. -/
def fail (files : Files) (stderr message : String) : Result :=
  ⟨1, fun _ => "", stderr ++ "\nError: " ++ message ++ "\n", files⟩

/-- Writes a value on indented lines. -/
def writeJson (files : Files) (path : String) (v : Value) : Except String Files :=
  (files.writeText path v.pretty).mapError fun fault =>
    "Failed to write '" ++ path ++ "': " ++ fault.message

/-- Writes the report, if it was asked for. -/
def writeReport (files : Files) (path : Option String) (ds : Diagnostics) :
    Except String Files :=
  match path with
  | some path => writeJson files path (Diagnostics.codec.encode ds)
  | none => .ok files

/-- Prints the report, writes it and the document, and says how it went. -/
def finish (encode : α → Value) (files : Files) (outcome : Outcome α) (out : String)
    (diagnostics : Option String) : Result :=
  let report := outcome.diagnostics.report
  match writeReport files diagnostics outcome.diagnostics with
  | .error message => fail files report message
  | .ok files => match outcome.document with
    | some document => match writeJson files out (encode document) with
      | .error message => fail files report message
      | .ok files =>
        let warnings := toString outcome.diagnostics.warnings.length
        ⟨0, fun elapsed =>
            "Compiled in " ++ elapsed ++ " (" ++ warnings ++ " warnings) -> " ++ out ++ "\n",
          report, files⟩
    | none =>
      let errors := toString outcome.diagnostics.errors.length
      ⟨1, fun _ => "", report ++ "\nCompilation failed with " ++ errors ++ " errors\n", files⟩

/-- A datum from a file, or another one if no file is named. -/
def loadOr (files : Files) (d : Decoder α) (absent : α) : Option String → Except LoadError α
  | some path => files.load d path
  | none => .ok absent

/-- The template and what it is compiled against. -/
def loadTemplate (files : Files) (args : TemplateArgs) : Except LoadError (Value × Context) := do
  let template ← files.load .value args.input
  let catalog ← loadOr files Catalog.codec.decode .empty args.catalog
  let connections ← loadOr files Connections.codec.decode [] args.connections
  let answers ← loadOr files .object [] args.answers
  let defaults ← loadOr files Policies.codec.decode .none args.defaults
  let user ← loadOr files (fun p t => (UserInfo.codec.decode p t).map some) none args.user
  pure (template, ⟨CatalogIndex.build catalog, user, connections, answers, defaults⟩)

/-- The executable and how it is lowered. -/
def loadDag (files : Files) (args : DagArgs) : Except LoadError (Value × Lowerer) := do
  let executable ← files.load .value args.input
  let catalog ← loadOr files (fun p t => (Catalog.codec.decode p t).map some) none args.catalog
  let uiDefaults ← loadOr files .object [] args.uiDefaults
  pure (executable, { Lowerer.standard with
    layout := (args.layout.getD .dagre).strategy
    uiDefaults := uiDefaults
    catalog := catalog.map CatalogIndex.build })

/-- Runs a command. -/
def run (files : Files) : Command → Result
  | .template args => match loadTemplate files args with
    | .error e => fail files "" e.message
    | .ok (template, context) =>
      finish Workflow.codec.encode files (Materializer.standard.compile template context) args.out
        args.diagnostics
  | .dag args => match loadDag files args with
    | .error e => fail files "" e.message
    | .ok (executable, lowerer) =>
      finish Dag.codec.encode files (lowerer.compile executable) args.out args.diagnostics

/-- The files that a command reads. -/
def Command.inputs : Command → List String
  | .template a => a.input :: [a.catalog, a.user, a.connections, a.answers, a.defaults].filterMap id
  | .dag a => a.input :: [a.catalog, a.uiDefaults].filterMap id

/-- The files that a command may write. -/
def Command.outputs : Command → List String
  | .template a => a.diagnostics.toList ++ [a.out]
  | .dag a => a.diagnostics.toList ++ [a.out]

end Flowgraph.CommandLine
