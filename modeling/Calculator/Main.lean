import Calculator.Command.Run

/-!
# Command — the program

Arguments and standard streams; what is written is decided by `Request.run`.  On a terminal, lines
are prompted for and run one by one.
-/

namespace Calculator

/-- Writes an outcome and returns its code. -/
def emit (outcome : Outcome) : IO UInt32 := do
  (← IO.getStdout).putStr outcome.stdout
  (← IO.getStdout).flush
  (← IO.getStderr).putStr outcome.stderr
  return outcome.code

/-- The bytes of a stream from here to its end, after those read before, latest first. -/
partial def readAll (stream : IO.FS.Stream) (before : List UInt8) : IO (List UInt8) := do
  let bytes ← stream.read 65536
  if bytes.isEmpty then return before.reverse
  readAll stream (bytes.toList.reverse ++ before)

/-- Prompts for lines and runs each of them, until the input ends or is not text. -/
partial def converse (options : Options) (stream : IO.FS.Stream) : IO UInt32 := do
  (← IO.getStdout).putStr "> "
  (← IO.getStdout).flush
  match ← (stream.getLine).toBaseIO with
  | .error _ => emit ⟨1, "", notTextMessage⟩
  | .ok line =>
    if line.isEmpty then emit ⟨0, "\n", ""⟩
    else
      let _ ← emit (runInput options line.toUTF8.toList)
      converse options stream

end Calculator

def main (arguments : List String) : IO UInt32 := do
  let stdin ← IO.getStdin
  match Calculator.Request.ofArguments arguments with
  | .readLines options =>
    if ← stdin.isTty then Calculator.converse options stdin
    else Calculator.emit (Calculator.runInput options (← Calculator.readAll stdin []))
  | request => Calculator.emit (request.run [])
