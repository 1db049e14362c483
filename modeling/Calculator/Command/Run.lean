import Calculator.Command.Input
import Calculator.Command.Options
import Calculator.Line
import Calculator.Text.WhiteSpace

/-!
# Command — runs

What the command writes for its arguments and its input.  Results go to standard output and
diagnostics to standard error.  An expression in the arguments fails the command if it has no
value; lines of the input never do, but a line that is not text ends the run.
-/

namespace Calculator

/-- What a run writes and the code it ends with. -/
structure Outcome where
  code : UInt32 := 0
  stdout : String := ""
  stderr : String := ""
deriving DecidableEq, Repr, Inhabited

/-- One run after another; the later one decides on the code. -/
def Outcome.andThen (a b : Outcome) : Outcome :=
  ⟨b.code, a.stdout ++ b.stdout, a.stderr ++ b.stderr⟩

/-- The line that shows the version. -/
def versionText : String := "decicalc 0.1.0\n"

/-- How the command is used. -/
def usageText : String := "Usage: decicalc [OPTIONS] [EXPRESSION]...\n"

/-- An option in the help text, with what it does in the column behind the names. -/
def helpLine (names meaning : String) : String :=
  "  " ++ names ++ String.ofList (List.replicate (35 - names.length) ' ') ++ meaning ++ "\n"

/-- What the arguments and options mean. -/
def helpText : String :=
  "decicalc evaluates arithmetic expressions with exact decimal arithmetic and prints the result"
  ++ " with grouped digits\n\n" ++ usageText
  ++ "\nArguments:\n"
  ++ "  [EXPRESSION]...  Expression to evaluate once. Without one, lines are read from stdin until"
  ++ " end of input\n"
  ++ "\nOptions:\n"
  ++ helpLine "-p, --precision <PRECISION>"
    ("Minimum number of significant fractional digits kept by a division that does not terminate"
      ++ " [default: 20]")
  ++ helpLine "    --max-exponent <MAX_EXPONENT>"
    "Largest accepted exponent magnitude for powers [default: 100000]"
  ++ helpLine "    --max-digits <MAX_DIGITS>"
    "Largest number of digits a product or power may produce [default: 1000000]"
  ++ helpLine "    --show-tree" "Print the parse tree before each result"
  ++ helpLine "    --show-ast" "Print the fully parenthesized syntax tree before each result"
  ++ helpLine "-v, --verbose..." "Log more detail to stderr"
  ++ helpLine "-h, --help" "Print help"
  ++ helpLine "-V, --version" "Print version"

/-- The message for arguments that are not understood. -/
def misuseText : String :=
  "error: unexpected arguments\n\n" ++ usageText ++ "\nFor more information, try '--help'.\n"

/-- The message for input that is not text. -/
def notTextMessage : String :=
  "Failed to read from stdin: stream did not contain valid UTF-8\n"

/-! ### Lines -/

/-- The trees of a line, as far as they are asked for and the line is an expression. -/
def shownTrees (options : Options) (line : String) : String :=
  match parse line with
  | .error _ => ""
  | .ok t =>
    (if options.showTree then "tree: " ++ t.text ++ "\n" else "")
      ++ (if options.showExpr then "ast:  " ++ t.toExpr.text ++ "\n" else "")

/-- Runs one line; the code says whether it has a result. -/
def runLine (options : Options) (line : String) : Outcome :=
  match answerLine options.limits line with
  | .ok result => ⟨0, shownTrees options line ++ result ++ "\n", ""⟩
  | .error d => ⟨1, shownTrees options line, d.text ++ "\n"⟩

/-- Runs one line of the input, unless it holds nothing but white space; no such line fails the
run. -/
def runInputLine (options : Options) (line : String) : Outcome :=
  if line.toList.all isWhiteSpace then {} else { runLine options line with code := 0 }

/-- Runs lines of the input after what was written before. -/
def runLinesAfter (options : Options) (written : Outcome) : List (List UInt8) → Outcome
  | [] => written
  | bytes :: rest =>
    match decodeLine? bytes with
    | none => written.andThen ⟨1, "", notTextMessage⟩
    | some line => runLinesAfter options (written.andThen (runInputLine options line)) rest

/-- Runs the lines of the input. -/
def runInput (options : Options) (bytes : List UInt8) : Outcome :=
  runLinesAfter options {} (inputLines bytes)

/-! ### The command -/

/-- What a request writes, given the bytes of the input. -/
def Request.run (input : List UInt8) : Request → Outcome
  | .evaluate options line => runLine options line
  | .readLines options => runInput options input
  | .version => ⟨0, versionText, ""⟩
  | .help => ⟨0, helpText, ""⟩
  | .misuse => ⟨2, "", misuseText⟩

/-- What the command writes. -/
def runCommand (arguments : List String) (input : List UInt8) : Outcome :=
  (Request.ofArguments arguments).run input

end Calculator
