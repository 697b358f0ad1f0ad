/-!
The arguments of the command.

The command has two subcommands, each with options and one file name. Arguments are taken in order:
the first one that makes no sense is an error, and asking for the version ends the reading. An
option's value is attached to it or the argument after it; a value that is not attached may not look
like an option itself.
-/

namespace LexicalModes.Command

/-- What options do. -/
inductive OptionKind
  /-- The option is on or off. -/
  | switch
  /-- The option has a value. -/
  | value
  deriving DecidableEq, Repr

/-- The options of the command and its subcommands. -/
inductive OptionName
  | verbose | version | grammar | language | html | standalone | rawControlChars | among
  deriving DecidableEq, Repr

namespace OptionName

/-- Whether the option has a value. -/
def kind : OptionName → OptionKind
  | .grammar | .language | .among => .value
  | _ => .switch

/-- The long spelling of the option. -/
def long : OptionName → String
  | .verbose => "verbose"
  | .version => "version"
  | .grammar => "grammar"
  | .language => "language"
  | .html => "html"
  | .standalone => "standalone"
  | .rawControlChars => "raw-control-chars"
  | .among => "among"

/-- The letter of the option, if it has one. -/
def letter? : OptionName → Option Char
  | .verbose => some 'v'
  | .version => some 'V'
  | .grammar => some 'g'
  | .language => some 'l'
  | .rawControlChars => some 'R'
  | _ => none

/-- Whether the option may be given more than once. -/
def isRepeatable : OptionName → Bool
  | .grammar | .among => true
  | _ => false

end OptionName

/-- What arguments are read for: the command itself, or one of its subcommands. -/
inductive Level
  | top
  | highlight
  | detect
  deriving DecidableEq, Repr

namespace Level

/-- The options of a level. -/
def options : Level → List OptionName
  | .top => [.verbose, .version]
  | .highlight => [.verbose, .version, .grammar, .language, .html, .standalone, .rawControlChars]
  | .detect => [.verbose, .version, .grammar, .among]

/-- The name by which the command is known at a level. -/
def displayName : Level → String
  | .top => "hilite"
  | .highlight => "hilite-highlight"
  | .detect => "hilite-detect"

/-- The subcommand with this name. -/
def ofName? : String → Option Level
  | "highlight" => some .highlight
  | "detect" => some .detect
  | _ => none

end Level

/-- Options and file names that were given, in order. -/
structure Given where
  options : List (OptionName × String) := []
  filenames : List String := []
  deriving Repr

namespace Given

/-- Whether an option was given. -/
def has (g : Given) (name : OptionName) : Bool := g.options.any (·.1 == name)

/-- The values given for an option, in order. -/
def values (g : Given) (name : OptionName) : List String :=
  g.options.filterMap fun (n, v) => if n == name then some v else none

/-- Add an option, unless it was given before and may not be repeated, or its value may not be
empty and is. -/
def add? (g : Given) (name : OptionName) (value : String) : Option Given :=
  if g.has name && !name.isRepeatable then none
  else if name == .grammar && value.isEmpty then none
  else some { g with options := g.options ++ [(name, value)] }

end Given

/-- What a list of arguments asks for. -/
inductive Request
  /-- The arguments make no sense. -/
  | invalid
  /-- Print the version of the command at this level. -/
  | version (level : Level)
  /-- No subcommand was given. -/
  | nothing
  | highlight (given : Given)
  | detect (given : Given)

/-- How the reading of an argument goes on. -/
inductive Reading
  | given (g : Given)
  | needsValue (name : OptionName) (g : Given)
  | version
  | invalid

/-- Whether an argument looks like an option. A lone minus sign does not. -/
def looksLikeOption : List Char → Bool
  | '-' :: _ :: _ => true
  | _ => false

/-- Read an option in its long spelling, without the two minus signs. -/
def readLong (level : Level) (g : Given) (text : List Char) : Reading :=
  let name := String.ofList (text.takeWhile (· != '='))
  let attached := match text.dropWhile (· != '=') with
    | _ :: value => some (String.ofList value)
    | [] => none
  match level.options.find? (·.long == name), attached with
  | none, _ => .invalid
  | some option, attached =>
    match option.kind, attached with
    | .switch, some _ => .invalid
    | .switch, none =>
      if option == .version then .version
      else
        match g.add? option "" with
        | some g => .given g
        | none => .invalid
    | .value, some value =>
      match g.add? option value with
      | some g => .given g
      | none => .invalid
    | .value, none => .needsValue option g

/-- Read options by their letters, one after another. The rest of the argument after the letter of
an option with a value is that value. -/
def readLetters (level : Level) : Given → List Char → Reading
  | g, [] => .given g
  | g, c :: rest =>
    match level.options.find? (·.letter? == some c) with
    | none => .invalid
    | some option =>
      match option.kind with
      | .switch =>
        if option == .version then .version
        else
          match g.add? option "" with
          | some g => readLetters level g rest
          | none => .invalid
      | .value =>
        match rest with
        | [] => .needsValue option g
        | _ =>
          let value := match rest with
            | '=' :: value => value
            | _ => rest
          match g.add? option (String.ofList value) with
          | some g => .given g
          | none => .invalid

/-- Read the arguments of a subcommand. After `--` everything is a file name; there may be one. -/
def readGiven (level : Level) : Bool → Given → List String → Option (Given ⊕ Unit)
  | _, g, [] => some (.inl g)
  | onlyNames, g, argument :: rest =>
    let chars := argument.toList
    let name :=
      if g.filenames.isEmpty then readGiven level onlyNames { g with filenames := [argument] } rest
      else none
    if onlyNames then name
    else if argument == "--" then readGiven level true g rest
    else if !looksLikeOption chars then name
    else
      let reading :=
        if chars.take 2 == ['-', '-'] then readLong level g (chars.drop 2)
        else readLetters level g (chars.drop 1)
      match reading with
      | .invalid => none
      | .version => some (.inr ())
      | .given g => readGiven level false g rest
      | .needsValue option g =>
        match rest with
        | [] => none
        | value :: rest =>
          if looksLikeOption value.toList then none
          else
            match g.add? option value with
            | some g => readGiven level false g rest
            | none => none

/-- The request made of what was given to a subcommand. A page needs the markup for it. -/
def requestOf (level : Level) (g : Given) : Request :=
  match level with
  | .highlight => if g.has .standalone && !g.has .html then .invalid else .highlight g
  | .detect => .detect g
  | .top => .nothing

/-- Read all arguments: options of the command itself, then a subcommand with its own. -/
def parseArguments : Given → List String → Request
  | _, [] => .nothing
  | g, argument :: rest =>
    match Level.ofName? argument with
    | some level =>
      match readGiven level false {} rest with
      | none => .invalid
      | some (.inr ()) => .version level
      | some (.inl given) => requestOf level given
    | none =>
      let chars := argument.toList
      if argument == "--" then (if rest.isEmpty then .nothing else .invalid)
      else if !looksLikeOption chars then .invalid
      else
        let reading :=
          if chars.take 2 == ['-', '-'] then readLong .top g (chars.drop 2)
          else readLetters .top g (chars.drop 1)
        match reading with
        | .version => .version .top
        | .given g => parseArguments g rest
        | _ => .invalid

/-- The names in a list separated by commas. -/
def splitCommas (text : String) : List String :=
  let (names, last) := text.toList.foldl
    (fun (names, name) c => if c == ',' then (name.reverse :: names, []) else (names, c :: name))
    (([], []) : List (List Char) × List Char)
  ((last.reverse :: names).reverse).map String.ofList

end LexicalModes.Command
