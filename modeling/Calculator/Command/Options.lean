import Calculator.Digits
import Calculator.Limits
import Calculator.Word

/-!
# Command — options

What the arguments of the command ask for.  Options and the words of an expression mix freely;
`--` ends the options.  The first argument that cannot be understood, or that asks for the version
or for help, decides.
-/

namespace Calculator

/-- How lines are evaluated and shown. -/
structure Options where
  limits : Limits := {}
  /-- Show the parse tree in front of each result. -/
  showTree : Bool := false
  /-- Show the expression in front of each result. -/
  showExpr : Bool := false
deriving DecidableEq, Repr, Inhabited

/-- What the command is asked to do. -/
inductive Request where
  /-- Evaluate one line. -/
  | evaluate (options : Options) (line : String)
  /-- Evaluate the lines of the input. -/
  | readLines (options : Options)
  /-- Show the version. -/
  | version
  /-- Show how the command is used. -/
  | help
  /-- The arguments are not understood. -/
  | misuse
deriving DecidableEq, Repr

/-! ### Names and values -/

/-- An option without a value. -/
inductive Switch where
  | showTree
  | showExpr
  | verbose
  | help
  | version
deriving DecidableEq, Repr

/-- An option with a value. -/
inductive Setting where
  | precision
  | maxExponent
  | maxDigits
deriving DecidableEq, Repr

/-- The option with a long name. -/
def longOption? : String → Option (Switch ⊕ Setting)
  | "precision" => some (.inr .precision)
  | "max-exponent" => some (.inr .maxExponent)
  | "max-digits" => some (.inr .maxDigits)
  | "show-tree" => some (.inl .showTree)
  | "show-ast" => some (.inl .showExpr)
  | "verbose" => some (.inl .verbose)
  | "help" => some (.inl .help)
  | "version" => some (.inl .version)
  | _ => none

/-- The option with a name of one letter. -/
def shortOption? : Char → Option (Switch ⊕ Setting)
  | 'p' => some (.inr .precision)
  | 'v' => some (.inl .verbose)
  | 'h' => some (.inl .help)
  | 'V' => some (.inl .version)
  | _ => none

/-- A number of digits without a sign. -/
def readDigits? (cs : List Char) : Option Nat :=
  if cs ≠ [] ∧ cs.all Char.isDigit then some (valueOf cs) else none

/-- A number with an optional plus sign. -/
def readNatural? : List Char → Option Nat
  | '+' :: cs => readDigits? cs
  | cs => readDigits? cs

/-- A number with an optional sign. -/
def readInteger? : List Char → Option Int
  | '-' :: cs => (readDigits? cs).map fun n => -(n : Int)
  | cs => (readNatural? cs).map fun n => (n : Int)

/-! ### Reading arguments -/

/-- What was read so far; the words latest first. -/
structure Arguments where
  precision : Option UInt32 := none
  maxExponent : Option UInt32 := none
  maxDigits : Option UInt64 := none
  showTree : Bool := false
  showExpr : Bool := false
  verbosity : Nat := 0
  words : List String := []
deriving DecidableEq, Repr

namespace Arguments

/-- Sets an option; none may be set twice. -/
def set (a : Arguments) (setting : Setting) (value : List Char) : Except Request Arguments :=
  match setting with
  | .precision =>
    match a.precision, readInteger? value >>= toUInt32? with
    | none, some w => .ok { a with precision := some w }
    | _, _ => .error .misuse
  | .maxExponent =>
    match a.maxExponent, readInteger? value >>= toUInt32? with
    | none, some w => .ok { a with maxExponent := some w }
    | _, _ => .error .misuse
  | .maxDigits =>
    match a.maxDigits, readNatural? value >>= fun n => toUInt64? n with
    | none, some w => .ok { a with maxDigits := some w }
    | _, _ => .error .misuse

/-- Turns an option on; only the one that asks for more detail may be given twice. -/
def turnOn (a : Arguments) : Switch → Except Request Arguments
  | .showTree => if a.showTree then .error .misuse else .ok { a with showTree := true }
  | .showExpr => if a.showExpr then .error .misuse else .ok { a with showExpr := true }
  | .verbose => .ok { a with verbosity := a.verbosity + 1 }
  | .help => .error .help
  | .version => .error .version

/-- Reads options of one letter.  Returns the setting whose value has to follow in the next
argument, if it is not here. -/
def readLetters (a : Arguments) : List Char → Except Request (Arguments × Option Setting)
  | [] => .ok (a, none)
  | c :: rest =>
    match shortOption? c with
    | none => .error .misuse
    | some (.inl switch) =>
      match a.turnOn switch with
      | .error stop => .error stop
      | .ok a' => a'.readLetters rest
    | some (.inr setting) =>
      match rest with
      | [] => .ok (a, some setting)
      | '=' :: value => (a.set setting value).map (·, none)
      | value => (a.set setting value).map (·, none)

/-- Reads an option with a long name, and its value if there is an equals sign. -/
def readLong (a : Arguments) (cs : List Char) : Except Request (Arguments × Option Setting) :=
  match longOption? (String.ofList (cs.takeWhile (· ≠ '='))), cs.dropWhile (· ≠ '=') with
  | some (.inl switch), [] => (a.turnOn switch).map (·, none)
  | some (.inr setting), [] => .ok (a, some setting)
  | some (.inr setting), _ :: value => (a.set setting value).map (·, none)
  | _, _ => .error .misuse

/-- Reads one argument. -/
def readArgument (a : Arguments) (argument : String) :
    Except Request (Arguments × Option Setting) :=
  match argument.toList with
  | '-' :: '-' :: cs => a.readLong cs
  | '-' :: c :: cs => a.readLetters (c :: cs)
  | _ => .ok ({ a with words := argument :: a.words }, none)

/-- Whether an argument looks like an option. -/
def isOption (argument : String) : Bool :=
  match argument.toList with
  | '-' :: _ :: _ => true
  | _ => false

/-- Reads arguments; a setting that waits for its value takes the next one. -/
def read : Arguments → (waiting : Option Setting) → List String → Except Request Arguments
  | a, none, [] => .ok a
  | _, some _, [] => .error .misuse
  | a, some setting, argument :: rest =>
    if isOption argument then .error .misuse
    else
      match a.set setting argument.toList with
      | .error stop => .error stop
      | .ok a' => a'.read none rest
  | a, none, argument :: rest =>
    if argument = "--" then .ok { a with words := rest.reverse ++ a.words }
    else
      match a.readArgument argument with
      | .error stop => .error stop
      | .ok (a', waiting) => a'.read waiting rest

/-- The options that were given; the others keep their standard value. -/
def options (a : Arguments) : Options where
  limits := {
    precision := a.precision.getD Limits.standard.precision
    maxExponent := a.maxExponent.getD Limits.standard.maxExponent
    maxDigits := a.maxDigits.getD Limits.standard.maxDigits }
  showTree := a.showTree
  showExpr := a.showExpr

end Arguments

/-- What the arguments ask for.  The words of an expression are joined by blanks; without any, the
input is read. -/
def Request.ofArguments (arguments : List String) : Request :=
  match Arguments.read {} none arguments with
  | .error stop => stop
  | .ok a =>
    if a.words.isEmpty then .readLines a.options
    else .evaluate a.options (" ".intercalate a.words.reverse)

end Calculator
