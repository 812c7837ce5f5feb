import HeartKeypad.Settings.Place
import HeartKeypad.Terminal
import Std.Time.DateTime.Timestamp

/-!
# The program

The program reads the environment, the settings file and the clock, and hands the lines
of its input to a terminal one after the other.
-/

namespace HeartKeypad

namespace Program

/-- The clock of the system. -/
def clock : IO Clock := do
  return ⟨(← Std.Time.Timestamp.now).toNanosecondsSinceUnixEpoch.val⟩

/-- The variables that settings depend on. -/
def environment : IO Environment := do
  let found ← Environment.names.filterMapM fun name => do
    return (← IO.getEnv name).map fun value => (name, value.toList)
  return ⟨found⟩

/-- The path of the settings file, if there is a place for one. -/
def path? : IO (Option Text) := do
  match ← IO.getEnv "HEARTCALC_CONFIG" with
  | some path => return some path.toList
  | none =>
    let named? ← IO.getEnv "XDG_CONFIG_HOME"
    return (← IO.getEnv "HOME").map fun home =>
      Settings.Place.file home.toList (named?.map String.toList)

/-- What the settings file holds. -/
def stored : IO Stored := do
  match ← path? with
  | none => return .missing
  | some path =>
    try
      return .holding (← IO.FS.readBinFile (String.ofList path)).toList
    catch e =>
      match e with
      | .noFileOrDirectory .. => return .missing
      | .inappropriateType .. => return .directory
      | e => return .unreadable (toString e)

/-- A word from the system's source of randomness. -/
def seed : IO UInt64 := do
  let bytes ← IO.getRandomBytes 8
  return bytes.toList.foldl (fun w b => w * 256 + b.toUInt64) 0

/-- Prints a piece of text on its own line. -/
def print : Print → IO Unit
  | .output text => IO.println (String.ofList text)
  | .complaint text => IO.eprintln (String.ofList text)

/-- The bytes up to the next newline, which belongs to them. -/
partial def readLine (input : IO.FS.Stream) (read : List UInt8) : IO (List UInt8) := do
  match (← input.read 1).toList with
  | [b] => if b = 10 then return (b :: read).reverse else readLine input (b :: read)
  | _ => return read.reverse

/-- Answers the lines of the input, where the clock has been read before. -/
partial def loop (input : IO.FS.Stream) (last : Clock) (t : Terminal) :
    IO (Except Failure Unit) := do
  let line ← readLine input []
  let clock ← clock
  let t := t.wait clock ((clock.now - last.now).toNat / 1000000)
  if line.isEmpty then return t.finish
  match t.turn line with
  | .ends result => return result
  | .goesOn printed t =>
    printed.forM print
    (← IO.getStdout).flush
    loop input clock t

/-- Runs the program. -/
def run : IO (Except Failure Unit) := do
  match Settings.load (← stored) (← environment) with
  | .error fault => return .error (.settings fault)
  | .ok settings =>
    let clock ← clock
    let t := Terminal.start settings (← seed) clock
    t.greeting.forM print
    (← IO.getStdout).flush
    loop (← IO.getStdin) clock t

end Program

end HeartKeypad

/-- The exit code is one if the program gives up. -/
def main : IO UInt32 := do
  match ← HeartKeypad.Program.run with
  | .ok () => return 0
  | .error failure =>
    IO.eprintln ("heartcalc: " ++ failure.message)
    return 1
