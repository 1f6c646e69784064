import SlotLang.Command.Arguments

/-!
# The command line

Reads the arguments, does what they ask for on the files of the machine, and exits.
-/

namespace SlotLang

/-- The system's wording of a failed file operation. -/
def fileMessage : IO.Error → String
  | .noFileOrDirectory .. => FileError.notFound.message
  | .invalidArgument _ code _ =>
    if code = 22 then FileError.nulInPath.message else FileError.nameTooLong.message
  | .inappropriateType _ code _ =>
    if code = 21 then FileError.isDirectory.message else FileError.notDirectory.message
  | e => toString e

instance : FileStore IO where
  readText path := do
    try
      match String.fromUTF8? (← IO.FS.readBinFile path) with
      | some text => return .ok text
      | none => return .error FileError.notText.message
    catch e => return .error (fileMessage e)
  writeText path text := do
    try
      IO.FS.writeFile path text
      return .ok ()
    catch e => return .error (fileMessage e)

end SlotLang

open SlotLang in
/-- Run the command line. -/
def main (args : List String) : IO UInt32 := do
  let exit ← (Invocation.ofArguments args).run (m := IO) .system
  IO.print exit.output
  IO.eprint exit.complaint
  if let some report := exit.report then IO.eprintln report
  return exit.code.toUInt32
