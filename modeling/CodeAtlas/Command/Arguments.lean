import CodeAtlas.Path

/-!
# Command line arguments

An invocation names one action, with options before it that concern every action and options after
it that concern the action alone. An option is written `--name value`, `--name=value`, `-n value`,
`-nvalue` or `-n=value`; several letters without values may share a dash, and after `--` nothing is
an option. A value that starts with a dash has to be attached to its option.

The value of an option that is not attached is looked at when the next option, the next argument in
a place of its own or the end of the arguments is reached, so that an earlier fault of this kind can
be reported after a later one of another kind.
-/

namespace CodeAtlas.Command

/-- Why the arguments are not accepted. -/
inductive UsageError where
  /-- Help is asked for. -/
  | help
  /-- There are no arguments at all. -/
  | noArguments
  /-- There is no action. -/
  | missingAction
  | unknownAction
  | unknownArgument
  /-- The argument that an action needs is missing. -/
  | missingArgument
  /-- A value is missing or not one of those allowed. -/
  | invalidValue
  /-- A value is not a number. -/
  | notANumber
  /-- An option is given twice. -/
  | repeated
  /-- A value is given to an option that takes none. -/
  | superfluousValue
deriving DecidableEq, Inhabited

/-- How a graph is printed. -/
inductive OutputFormat where
  | json
  | yaml
deriving DecidableEq, Inhabited

/-- What is done with the graph. -/
inductive Action where
  | analyze (format : OutputFormat)
  | stats
  | symbols (file : Path)
  | unresolved (limit : Nat)
  | externals
  | callers (name : String)
  | cycles
deriving DecidableEq, Inhabited

/-- An accepted command line. -/
structure Invocation where
  root : Option Path := none
  config : Option Path := none
  threads : Option Nat := none
  verbosity : Nat := 0
  action : Action
deriving DecidableEq, Inhabited

/-! ## Values -/

/-- The value of an option or argument. -/
inductive Setting where
  | root (path : Path)
  | config (path : Path)
  | threads (count : Nat)
  | verbose
  | format (format : OutputFormat)
  | limit (count : Nat)
  | file (path : Path)
  | name (text : String)
deriving DecidableEq

/-- Read a path, which may not be empty. -/
def readPath (use : Path → Setting) (text : String) : Except UsageError Setting :=
  if text = "" then .error .invalidValue else .ok (use ⟨text⟩)

/-- Read a number of at most 64 bits, which may have a plus sign. -/
def readCount (use : Nat → Setting) (text : String) : Except UsageError Setting :=
  let digits := match text.toList with
    | '+' :: s => s
    | s => s
  let n := digits.foldl (fun n c => n * 10 + (c.toNat - 48)) 0
  if !digits.isEmpty && digits.all Char.isDigit && n < Nat.pow 2 64 then .ok (use n)
  else .error .notANumber

/-- Read the name of a format. -/
def readFormat (text : String) : Except UsageError Setting :=
  match text with
  | "json" => .ok (.format .json)
  | "yaml" => .ok (.format .yaml)
  | _ => .error .invalidValue

/-! ## Options -/

/-- What an option does. -/
inductive Effect where
  | help
  /-- The option takes no value and may be repeated. -/
  | mark (setting : Setting)
  /-- The option takes a value. -/
  | value (read : String → Except UsageError Setting)

/-- An option. -/
structure Flag where
  short : Char
  long : String
  effect : Effect

/-- What is accepted before or after the action. -/
structure Grammar where
  options : List Flag
  /-- The argument without a name, if one is needed. -/
  argument : Option (String → Except UsageError Setting) := none
  /-- The actions that end the arguments of this grammar. -/
  actions : List String := []

/-- A value that has not been looked at yet; none if it has not been given. -/
structure Pending where
  /-- The option, or none for the argument without a name. -/
  option : Option String
  read : String → Except UsageError Setting
  text : Option String

/-- How far the arguments have been read. -/
structure State where
  /-- The options that have been given with a value. -/
  given : List String := []
  settings : List Setting := []
  pending : Option Pending := none
  /-- Has the argument without a name been given? -/
  argumentSeen : Bool := false
  /-- Is nothing an option any more? -/
  onlyArguments : Bool := false

namespace State

/-- Is the next argument the value of an option? -/
def awaitsValue (st : State) : Bool := !st.onlyArguments && st.pending.any (·.text.isNone)

/-- Take a value into account. -/
def record (st : State) (option : Option String) (read : String → Except UsageError Setting)
    (text : String) : Except UsageError State :=
  if option.any st.given.contains then .error .repeated
  else
    (read text).map fun setting =>
      { st with given := option.toList ++ st.given, settings := st.settings ++ [setting] }

/-- Look at the value that is pending. -/
def flush (st : State) : Except UsageError State :=
  match st.pending with
  | none => .ok st
  | some p =>
    match p.text with
    | none => .error .invalidValue
    | some text => { st with pending := none }.record p.option p.read text

/-- Take an option without a value into account. -/
def mark (st : State) (setting : Setting) : Except UsageError State :=
  st.flush.map fun st => { st with settings := st.settings ++ [setting] }

/-- Wait for the value of an option. -/
def await (st : State) (option : String) (read : String → Except UsageError Setting) :
    Except UsageError State :=
  st.flush.map fun st => { st with pending := some ⟨some option, read, none⟩ }

/-- Take an option with its value into account. -/
def attach (st : State) (option : String) (read : String → Except UsageError Setting)
    (text : String) : Except UsageError State := do
  (← st.flush).record (some option) read text

/-- Stop for help. -/
def stopForHelp (st : State) : Except UsageError State := do
  let _ ← st.flush
  .error .help

end State

/-! ## Reading -/

/-- Read an option with two dashes. -/
def readLong (grammar : Grammar) (st : State) (body : String) : Except UsageError State :=
  let name := String.ofList (body.toList.takeWhile (· != '='))
  let attached := match body.toList.dropWhile (· != '=') with
    | [] => none
    | _ :: value => some (String.ofList value)
  match grammar.options.find? (·.long == name), attached with
  | none, _ => .error .unknownArgument
  | some flag, none =>
    match flag.effect with
    | .help => st.stopForHelp
    | .mark setting => st.mark setting
    | .value read => st.await flag.long read
  | some flag, some value =>
    match flag.effect with
    | .value read => st.attach flag.long read value
    | _ => .error .superfluousValue

/-- Drop an equals sign at the start. -/
def dropEquals : List Char → List Char
  | '=' :: s => s
  | s => s

/-- Read the letters after one dash. -/
def readShort (grammar : Grammar) : State → List Char → Except UsageError State
  | st, [] => .ok st
  | st, c :: rest =>
    match grammar.options.find? (·.short == c) with
    | none => .error .unknownArgument
    | some flag =>
      match flag.effect with
      | .help => st.stopForHelp
      | .mark setting => (st.mark setting).bind fun next => readShort grammar next rest
      | .value read =>
        if rest.isEmpty then st.await flag.long read
        else st.attach flag.long read (.ofList (dropEquals rest))

/-- Why an argument in no place of its own is refused: before the action it is taken for one, unless
it is one and comes too late. -/
def refusal (grammar : Grammar) (st : State) (arg : String) : UsageError :=
  if grammar.actions.isEmpty || (st.onlyArguments && grammar.actions.contains arg) then
    .unknownArgument
  else .unknownAction

/-- Read an argument that is not an option. -/
def readPlain (grammar : Grammar) (st : State) (arg : String) : Except UsageError State :=
  if st.awaitsValue then
    .ok { st with pending := st.pending.map fun p => { p with text := some arg } }
  else
    match grammar.argument with
    | none => .error (refusal grammar st arg)
    | some read =>
      if st.argumentSeen then .error .unknownArgument
      else
        st.flush.map fun st =>
          { st with pending := some ⟨none, read, some arg⟩, argumentSeen := true }

/-- The arguments before an action, and the action with those after it. -/
structure Split where
  state : State
  action : Option (String × List String)

/-- Read arguments up to an action. -/
def readArguments (grammar : Grammar) : State → List String → Except UsageError Split
  | st, [] => .ok ⟨st, none⟩
  | st, arg :: rest =>
    if st.onlyArguments then
      (readPlain grammar st arg).bind fun next => readArguments grammar next rest
    else if !st.awaitsValue && grammar.actions.contains arg then .ok ⟨st, some (arg, rest)⟩
    else
      match arg.toList with
      | ['-', '-'] => readArguments grammar { st with onlyArguments := true } rest
      | '-' :: '-' :: body =>
        (readLong grammar st (.ofList body)).bind fun next => readArguments grammar next rest
      | '-' :: c :: body =>
        (readShort grammar st (c :: body)).bind fun next => readArguments grammar next rest
      | _ => (readPlain grammar st arg).bind fun next => readArguments grammar next rest

/-! ## Actions -/

/-- The option that asks for help. -/
def helpFlag : Flag := ⟨'h', "help", .help⟩

/-- An action as it is written: its name, what may follow it, and what the settings make of it, if
nothing is missing. -/
structure Form where
  name : String
  grammar : Grammar
  build : List Setting → Option Action

namespace Setting

/-- The format, if this is one. -/
def format? : Setting → Option OutputFormat
  | format f => some f
  | _ => none

/-- The limit, if this is one. -/
def limit? : Setting → Option Nat
  | limit n => some n
  | _ => none

/-- The file, if this is one. -/
def file? : Setting → Option Path
  | file path => some path
  | _ => none

/-- The name, if this is one. -/
def name? : Setting → Option String
  | name text => some text
  | _ => none

/-- The root, if this is one. -/
def root? : Setting → Option Path
  | root path => some path
  | _ => none

/-- The configuration, if this is one. -/
def config? : Setting → Option Path
  | config path => some path
  | _ => none

/-- The number of workers, if this is one. -/
def threads? : Setting → Option Nat
  | threads n => some n
  | _ => none

end Setting

/-- The form of an action without options. -/
def bareForm (name : String) (action : Action) : Form :=
  ⟨name, { options := [helpFlag] }, fun _ => some action⟩

/-- All actions. -/
def forms : List Form :=
  [⟨"analyze", { options := [⟨'f', "format", .value readFormat⟩, helpFlag] },
      fun settings => some (.analyze ((settings.findSome? Setting.format?).getD .json))⟩,
    bareForm "stats" .stats,
    ⟨"symbols", { options := [helpFlag], argument := some (readPath .file) },
      fun settings => (settings.findSome? Setting.file?).map .symbols⟩,
    ⟨"unresolved", { options := [⟨'l', "limit", .value (readCount .limit)⟩, helpFlag] },
      fun settings => some (.unresolved ((settings.findSome? Setting.limit?).getD 50))⟩,
    bareForm "externals" .externals,
    ⟨"callers",
      { options := [helpFlag], argument := some fun text => .ok (.name text) },
      fun settings => (settings.findSome? Setting.name?).map .callers⟩,
    bareForm "cycles" .cycles]

/-- The words that end the options for every action. -/
def actionWords : List String := forms.map (·.name) ++ ["help"]

/-- What may stand before the action. -/
def mainGrammar : Grammar where
  options :=
    [⟨'r', "root", .value (readPath .root)⟩, ⟨'c', "config", .value (readPath .config)⟩,
      ⟨'t', "threads", .value (readCount .threads)⟩, ⟨'v', "verbose", .mark .verbose⟩, helpFlag]
  actions := actionWords

/-- Help is given for everything or for one action. -/
def helpOn (topics : List String) : UsageError :=
  match topics with
  | [] => .help
  | [topic] => if actionWords.contains topic then .help else .unknownAction
  | _ => .unknownAction

/-- Read an action and what follows it. -/
def readAction (word : String) (args : List String) : Except UsageError Action :=
  match forms.find? (·.name == word) with
  | none => .error (helpOn args)
  | some form => do
    let split ← readArguments form.grammar {} args
    let st ← split.state.flush
    match form.build st.settings with
    | some action => .ok action
    | none => .error .missingArgument

/-- Read a whole command line. -/
def parse (args : List String) : Except UsageError Invocation := do
  let split ← readArguments mainGrammar {} args
  match split.action with
  | none =>
    let st ← split.state.flush
    .error (if st.settings.isEmpty then .noArguments else .missingAction)
  | some (word, rest) =>
    let action ← readAction word rest
    let st ← split.state.flush
    .ok
      { root := st.settings.findSome? Setting.root?
        config := st.settings.findSome? Setting.config?
        threads := st.settings.findSome? Setting.threads?
        verbosity := st.settings.count .verbose
        action := action }

end CodeAtlas.Command
