import SourceArchive.Command.Basic
import SourceArchive.Text.Basic

/-!
# Arguments

The arguments of a call name a command, its options and its operand.  Options that concern every command may
stand before or after its name; behind it they take precedence.  An option is given at most once on either side.
-/

namespace SourceArchive

namespace Arguments

structure Opt where
  long : Text
  short : Option Char
  takesValue : Bool
deriving Repr, DecidableEq

/-- Why reading stops before the end. -/
inductive Stop where
  | misuse
  | help
  | version
deriving Repr, DecidableEq

def settings : Opt := ⟨"config", none, true⟩

/-- The options for every command.  The first two concern only what is logged. -/
def common : List Opt := [⟨"verbose", some 'v', false⟩, ⟨"quiet", some 'q', false⟩, settings]

def help : Opt := ⟨"help", some 'h', false⟩

def version : Opt := ⟨"version", some 'V', false⟩

def output : Opt := ⟨"output", some 'o', true⟩

def json : Opt := ⟨"json", none, false⟩

def plain : Opt := ⟨"original", none, true⟩

def outDir : Opt := ⟨"out-dir", none, true⟩

/-- The options in front of a command. -/
def topOptions : List Opt := common ++ [help, version]

/-- The options and operands given on one side of the command's name.  A flag has an empty value. -/
structure Given where
  options : List (Text × Text) := []
  operands : List Text := []
deriving Repr, DecidableEq

namespace Given

def value? (g : Given) (o : Opt) : Option Text := g.options.lookup o.long

def has (g : Given) (o : Opt) : Bool := (g.value? o).isSome

def addFlag (g : Given) (o : Opt) : Except Stop Given :=
  if g.has o then .error .misuse
  else if o = help then .error .help
  else if o = version then .error .version
  else .ok { g with options := g.options ++ [(o.long, [])] }

/-- Adds an option with a value, which is a path and not empty. -/
def addValue (g : Given) (o : Opt) (value : Text) : Except Stop Given :=
  if g.has o ∨ value.isEmpty then .error .misuse
  else .ok { g with options := g.options ++ [(o.long, value)] }

/-- Adds the operand, of which there is one. -/
def addOperand (g : Given) (value : Text) : Except Stop Given :=
  if !g.operands.isEmpty ∨ value.isEmpty then .error .misuse else .ok { g with operands := [value] }

end Given

def isOptional (arg : Text) : Bool := arg.startsWith "-" && arg != "-"

/-- A cluster of short options, read behind its dash.  If the last of them still needs its value, it is named. -/
def readCluster (options : List Opt) (g : Given) : Text → Except Stop (Given × Option Opt)
  | [] => .ok (g, none)
  | c :: rest =>
    match options.find? (·.short = some c) with
    | none => .error .misuse
    | some o =>
      if o.takesValue then
        match rest with
        | [] => .ok (g, some o)
        | '=' :: value => (g.addValue o value).map (·, none)
        | value => (g.addValue o value).map (·, none)
      else
        match g.addFlag o with
        | .error stop => .error stop
        | .ok g => readCluster options g rest

/-- A long option, read behind its dashes.  If it still needs its value, it is named. -/
def readLong (options : List Opt) (g : Given) (arg : Text) : Except Stop (Given × Option Opt) :=
  let (name, attached) := match Text.cutAt? '=' arg with
    | none => (arg, none)
    | some (name, value) => (name, some value)
  match options.find? (·.long = name) with
  | none => .error .misuse
  | some o =>
    match o.takesValue, attached with
    | true, some value => (g.addValue o value).map (·, none)
    | true, none => .ok (g, some o)
    | false, some _ => .error .misuse
    | false, none => (g.addFlag o).map (·, none)

def readOptional (options : List Opt) (g : Given) (arg : Text) : Except Stop (Given × Option Opt) :=
  match Text.after? arg "--" with
  | some long => readLong options g long
  | none => readCluster options g (arg.drop 1)

/-- Reads arguments up to the first operand: what was given, and the operand and the arguments behind it. -/
def readOptions (options : List Opt) (g : Given) : List Text → Except Stop (Given × List Text)
  | [] => .ok (g, [])
  | arg :: rest =>
    if arg = "--" ∨ !isOptional arg then .ok (g, arg :: rest)
    else
      match readOptional options g arg with
      | .error stop => .error stop
      | .ok (g, none) => readOptions options g rest
      | .ok (g, some o) =>
        match rest with
        | [] => .error .misuse
        | value :: rest =>
          if isOptional value then .error .misuse
          else
            match g.addValue o value with
            | .error stop => .error stop
            | .ok g => readOptions options g rest

theorem length_le_of_readOptions {options : List Opt} {g g' : Given} {args rest : List Text}
    (h : readOptions options g args = .ok (g', rest)) : rest.length ≤ args.length := by
  fun_induction readOptions options g args <;> simp_all <;> grind

def readRest (options : List Opt) (g : Given) (args : List Text) : Except Stop Given :=
  match _h : readOptions options g args with
  | .error stop => .error stop
  | .ok (g, []) => .ok g
  | .ok (g, arg :: rest) =>
    if arg = "--" then rest.foldlM Given.addOperand g
    else
      match g.addOperand arg with
      | .error stop => .error stop
      | .ok g => readRest options g rest
termination_by args.length
decreasing_by exact length_le_of_readOptions _h

/-- How a command is written: its name, its own options, and the command that its operand and options make. -/
structure Form where
  name : Text
  options : List Opt
  make : Text → Given → Command

def forms : List Form := [
  ⟨"pack", [output], fun operand g => .pack operand (g.value? output)⟩,
  ⟨"mark", [output], fun operand g => .mark operand (g.value? output)⟩,
  ⟨"enhance", [output, json], fun operand g => .enhance operand (g.value? output) (g.has json)⟩,
  ⟨"validate", [plain, output, json], fun operand g =>
    .validate operand (g.value? plain) (g.value? output) (g.has json)⟩,
  ⟨"run", [outDir], fun operand g => .run operand ((g.value? outDir).getD ".")⟩]

def form? (name : Text) : Option Form := forms.find? (·.name = name)

/-- What the arguments behind the word for help ask for: help, possibly for a command that there is. -/
def helpStop : List Text → Stop
  | [] => .help
  | [name] => if name = "help" ∨ (form? name).isSome then .help else .misuse
  | _ => .misuse

def read (args : List Text) : Except Stop Invocation := do
  let (top, rest) ← readOptions topOptions {} args
  match rest with
  | [] => throw .misuse
  | name :: rest =>
    if name = "help" then throw (helpStop rest)
    match form? name with
    | none => throw .misuse
    | some form =>
      let g ← readRest (form.options ++ common ++ [help]) {} rest
      match g.operands.head? with
      | none => throw .misuse
      | some operand =>
        return { settings := (g.value? settings).or (top.value? settings), command := form.make operand g }

end Arguments

end SourceArchive
