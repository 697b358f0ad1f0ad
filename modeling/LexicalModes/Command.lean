import LexicalModes.Command.Arguments
import LexicalModes.Definition.Load
import LexicalModes.Highlighter
import LexicalModes.Render.Page
import LexicalModes.Render.Terminal

/-!
The command: highlight a source text, or guess its language.

Everything the command needs from outside is in a `Host`, and everything it does is in the
`Outcome`: an exit code and what is written. Grammars are loaded first, then the source text is
read, then it is highlighted; the first failure ends the command.
-/

namespace LexicalModes.Command

/-- What the command needs from outside. -/
structure Host (m : Type → Type) extends FileAccess m where
  /-- The text on standard input; none if it is not text. -/
  standardInput : m (Option String)
  /-- Whether output goes to a terminal. -/
  onTerminal : m Bool

/-- What the command does. -/
structure Outcome where
  code : Nat
  output : String := ""
  errors : String := ""
  deriving DecidableEq, Repr

/-- Reasons the command fails. -/
inductive Failure
  | loading (e : LoadingError)
  | message (text : String)

/-- The word that starts every report of a failure. -/
def errorWord : String := escapeSequence "91" ++ "error" ++ escapeSequence "39"

/-- The report of a failure. -/
def Failure.report : Failure → String
  | .loading e =>
    errorWord ++ ": " ++ e.filename ++ ": " ++ escapeSequence "1" ++ e.problem ++
      escapeSequence "0" ++ "\n" ++ (if e.details.isEmpty then "" else e.details ++ "\n")
  | .message text => errorWord ++ ": " ++ text ++ "\n"

/-- The version of the program. -/
def versionText : String := "v0.3.0"

/-- What is printed when no subcommand is given. -/
def usage : String := "usage: hilite [COMMAND] ...\nTry '--help' for more information.\n"

variable {m : Type → Type} [Monad m]

/-- A computation that may fail. -/
abbrev Attempt (m : Type → Type) := ExceptT Failure m

/-- The definition files that a path stands for: itself, or the files in it by name if it is a
directory. -/
def definitionFiles (host : Host m) (path : String) : Attempt m (List String) := do
  if ← host.isDirectory path then
    match ← host.list path with
    | .error e => throw (.loading ⟨"Failed reading directory", e.description, path⟩)
    | .ok names =>
      let names := names.filter fun name => fileExtension? name == some "json"
      return (names.mergeSort fun a b => a ≤ b).map (joinPath path)
  else return [path]

/-- Load the language of a file into the registry. -/
def loadFile (host : Host m) (registry : Registry) (file : String) : Attempt m Registry := do
  match ← ExceptT.lift (loadLanguage host.toFileAccess file) with
  | .ok language => return registry.register language
  | .error e => throw (.loading (e.toError file))

/-- Load the languages that paths stand for, in order. There has to be one in the end. -/
def loadRegistry (host : Host m) (paths : List String) : Attempt m Registry := do
  let registry ← paths.foldlM (fun registry path => do
    let files ← definitionFiles host path
    files.foldlM (loadFile host) registry) Registry.empty
  if registry.size = 0 then
    throw (.message "No grammars loaded; supply at least one with --grammar")
  return registry

/-- The file name that stands for standard input. -/
def standardInputName : String := "-"

/-- The source text in a file or on standard input. -/
def loadSource (host : Host m) (filename : String) : Attempt m String := do
  if filename == standardInputName then
    match ← host.standardInput with
    | some text => return text
    | none =>
      throw (.message "Unable to read standard input: stream did not contain valid UTF-8")
  else
    match ← host.readText filename with
    | .ok text => return text
    | .error e => throw (.loading (.ofRead filename e))

/-- The file name that was given, standard input if none was. -/
def Given.filename (g : Given) : String := g.filenames.headD standardInputName

/-- A highlighting result, or the failure it is reported as. -/
def attempt {α : Type} (x : Traced α) : Attempt m α :=
  match x.value with
  | .ok a => pure a
  | .error e => throw (.message e.message)

/-- What is printed for highlighted tokens. -/
def printed (g : Given) (onTerminal : Bool) (h : Highlighted) : String :=
  if g.has .html then
    let markup := render (.html Renderer.defaultClassStart) h.tokens
    if g.has .standalone then
      page markup ((pathFileName? g.filename).getD standardInputName) h.language
    else markup
  else if g.has .rawControlChars || onTerminal then render .terminal h.tokens
  else render .identity h.tokens

/-- Highlight a source text by the language given, or by the best of those loaded. -/
def highlight (host : Host m) (g : Given) : Attempt m String := do
  let registry ← loadRegistry host (g.values .grammar)
  let content ← loadSource host g.filename
  let highlighter : Highlighter := { registry := registry }
  let result ← match (g.values .language).head? with
    | some language => attempt (highlighter.highlightWith language content {})
    | none => (·.best) <$> attempt (highlighter.highlightAmong content [])
  return printed g (← host.onTerminal) result

/-- A line with a language and its relevance. -/
def reportLine (h : Highlighted) : String :=
  h.language.getD "unknown" ++ "\t" ++ h.relevance.repr ++ "\n"

/-- Guess the language of a source text. -/
def detect (host : Host m) (g : Given) : Attempt m String := do
  let registry ← loadRegistry host (g.values .grammar)
  let content ← loadSource host g.filename
  let highlighter : Highlighter := { registry := registry }
  let detection ← attempt
    (highlighter.highlightAmong content ((g.values .among).flatMap splitCommas))
  return reportLine detection.best ++ (detection.second.map reportLine).getD ""

/-- The outcome of an attempt. -/
def outcome (x : Attempt m String) : m Outcome := do
  match ← x.run with
  | .ok output => return { code := 0, output := output }
  | .error e => return { code := 1, errors := e.report }

/-- Run the command with the given arguments. -/
def run (host : Host m) (arguments : List String) : m Outcome :=
  match parseArguments {} arguments with
  | .invalid => return { code := 2, errors := "invalid arguments\n" }
  | .version level =>
    return { code := 0, output := level.displayName ++ " " ++ versionText ++ "\n" }
  | .nothing => return { code := 0, output := usage }
  | .highlight g => outcome (highlight host g)
  | .detect g => outcome (detect host g)

end LexicalModes.Command
