import FormulaTable.Number.Text

/-!
# Arguments of the command line

The arguments name a command, and have options before or after that name. An option is a switch or
takes a value, which follows it as the next argument or stands behind an equals sign. Some options
are allowed everywhere, the others belong to one command; each may be given once on either side of
the command's name. After `--` no argument is an option.
-/

namespace FormulaTable.CommandLine

/-! ## Options -/

/-- The name of a command. -/
inductive Verb where
  | eval
  | validate
  | rollup
  | functions
deriving DecidableEq, Repr

/-- The command with this name. -/
def Verb.ofName? : String → Option Verb
  | "eval" => some eval
  | "validate" => some validate
  | "rollup" => some rollup
  | "functions" => some functions
  | _ => none

/-- An option without a value. -/
inductive Switch where
  | verbose
  | noCache
  | version
deriving DecidableEq, Repr

/-- An option with a value. -/
inductive Parameter where
  | maxDepth
  | columns
  | row
  | config
  | target
  | rows
deriving DecidableEq, Repr

/-- An option. -/
inductive OptionName where
  | switch (s : Switch)
  | parameter (p : Parameter)
deriving DecidableEq, Repr

/-- The option with a long name after the name of a command, or before it. -/
def OptionName.ofLong? (verb : Option Verb) (name : String) : Option OptionName :=
  match name, verb with
  | "verbose", _ => some (switch .verbose)
  | "no-cache", _ => some (switch .noCache)
  | "max-depth", _ => some (parameter .maxDepth)
  | "version", none => some (switch .version)
  | "columns", some .eval => some (parameter .columns)
  | "row", some .eval => some (parameter .row)
  | "config", some .rollup => some (parameter .config)
  | "target", some .rollup => some (parameter .target)
  | "rows", some .rollup => some (parameter .rows)
  | _, _ => none

/-- The option with a name of one letter. -/
def OptionName.ofShort? (verb : Option Verb) (name : Char) : Option OptionName :=
  match name, verb with
  | 'v', _ => some (switch .verbose)
  | 'V', none => some (switch .version)
  | 'c', some .eval => some (parameter .columns)
  | 'r', some .eval => some (parameter .row)
  | _, _ => none

/-- A natural number of 64 bits, with an optional plus sign. -/
def word? (s : String) : Option Nat :=
  let ds := match s.toList with
    | '+' :: ds => ds
    | ds => ds
  if ds.isEmpty || !ds.all Char.isDigit then none
  else (some (Number.ofDigits ds)).filter (· < Nat.pow 2 64)

/-- The text can be the value of an option: a depth is a number, and a path is not empty. -/
def Parameter.accepts (p : Parameter) (value : String) : Bool :=
  match p with
  | maxDepth => (word? value).isSome
  | _ => !value.isEmpty

/-! ## Reading arguments -/

/-- Why the arguments name no command to run. -/
inductive Refusal where
  | misused
  /-- The version was asked for instead. -/
  | version
deriving DecidableEq, Repr

/-- What the arguments on one side of the command's name say so far. -/
structure Given where
  switches : List Switch := []
  parameters : List (Parameter × String) := []
  operands : List String := []
  /-- The option whose value comes next. -/
  awaiting : Option Parameter := none
  /-- Only operands follow. -/
  operandsOnly : Bool := false

namespace Given

/-- The value of an option. -/
def value? (g : Given) (p : Parameter) : Option String := g.parameters.lookup p

/-- Adds the value of an option. -/
def give (g : Given) (p : Parameter) (value : String) : Except Refusal Given :=
  if (g.value? p).isSome || !p.accepts value then .error .misused
  else .ok { g with parameters := (p, value) :: g.parameters, awaiting := none }

/-- Adds a switch. -/
def turn (g : Given) : Switch → Except Refusal Given
  | .version => .error .version
  | s => if g.switches.contains s then .error .misused else .ok { g with switches := s :: g.switches }

/-- Adds an option with a long name and the value behind its equals sign, if any. -/
def addLong (verb : Option Verb) (g : Given) (name : String) (value : Option String) :
    Except Refusal Given :=
  match OptionName.ofLong? verb name, value with
  | some (.switch s), none => g.turn s
  | some (.parameter p), some value => g.give p value
  | some (.parameter p), none => .ok { g with awaiting := some p }
  | _, _ => .error .misused

/-- Adds options named by letters. What follows the letter of an option with a value is its value,
with or without an equals sign. -/
def addShort (verb : Option Verb) (g : Given) : List Char → Except Refusal Given
  | [] => .ok g
  | c :: rest =>
    match OptionName.ofShort? verb c with
    | none => .error .misused
    | some (.switch s) => do
      let g ← g.turn s
      g.addShort verb rest
    | some (.parameter p) =>
      match rest with
      | [] => .ok { g with awaiting := some p }
      | '=' :: value => g.give p (String.ofList value)
      | value => g.give p (String.ofList value)

/-- Splits a long option at its first equals sign. -/
def splitLong (s : List Char) : String × Option String :=
  (String.ofList (s.takeWhile (· ≠ '=')),
    match s.dropWhile (· ≠ '=') with
    | '=' :: value => some (String.ofList value)
    | _ => none)

/-- Adds an argument. An option may not come where a value has to. -/
def add (verb : Option Verb) (g : Given) (argument : String) : Except Refusal Given :=
  if g.operandsOnly then .ok { g with operands := g.operands ++ [argument] }
  else
    match argument.toList, g.awaiting with
    | '-' :: _ :: _, some _ => .error .misused
    | ['-', '-'], none => .ok { g with operandsOnly := true }
    | '-' :: '-' :: option, none =>
      let (name, value) := splitLong option
      g.addLong verb name value
    | '-' :: c :: letters, none => g.addShort verb (c :: letters)
    | _, some p => g.give p argument
    | _, none => .ok { g with operands := g.operands ++ [argument] }

/-- The arguments after the name of a command. -/
def ofArguments (verb : Verb) (arguments : List String) : Except Refusal Given := do
  let g ← arguments.foldlM (add (some verb)) {}
  if g.awaiting.isSome then throw .misused
  return g

end Given

/-! ## Commands -/

/-- A command with what it needs; files are named by their paths. -/
inductive Command where
  | eval (formula : String) (columns row : Option String)
  | validate (formula : String)
  | rollup (config target rows : String)
  | functions
deriving DecidableEq, Repr

/-- What the arguments ask for. -/
structure Request where
  command : Command
  maxDepth : Option Nat
  noCache : Bool
deriving DecidableEq, Repr

/-- The command that a name and the arguments after it make. -/
def Command.ofGiven? (verb : Verb) (g : Given) : Option Command :=
  match verb, g.operands with
  | .eval, [formula] => some (eval formula (g.value? .columns) (g.value? .row))
  | .validate, [formula] => some (validate formula)
  | .rollup, [] => do
    return rollup (← g.value? .config) (← g.value? .target) (← g.value? .rows)
  | .functions, [] => some functions
  | _, _ => none

/-- The request that the arguments on both sides of a command's name make. A depth after the name
counts before one in front of it. -/
def Request.ofGiven (before : Given) (verb : Verb) (after : Given) : Except Refusal Request :=
  match Command.ofGiven? verb after with
  | none => .error .misused
  | some command => .ok {
      command
      maxDepth := (after.value? .maxDepth <|> before.value? .maxDepth).bind word?
      noCache := after.switches.contains .noCache || before.switches.contains .noCache }

/-- Reads arguments up to the name of a command and those after it. -/
def Request.ofArgumentsAfter (before : Given) : List String → Except Refusal Request
  | [] => .error .misused
  | argument :: arguments =>
    let verb := if before.awaiting.isSome || before.operandsOnly then none
      else Verb.ofName? argument
    match verb with
    | some verb => do
      let after ← Given.ofArguments verb arguments
      Request.ofGiven before verb after
    | none => do
      let before ← before.add none argument
      if before.operands.isEmpty then Request.ofArgumentsAfter before arguments
      else throw .misused

/-- The request that arguments make. -/
def Request.ofArguments (arguments : List String) : Except Refusal Request :=
  Request.ofArgumentsAfter {} arguments

end FormulaTable.CommandLine
