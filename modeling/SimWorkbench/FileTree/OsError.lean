/-!
# Refusals of the operating system

The causes for which a file operation or the start of a program is refused, and their texts.
-/
namespace SimWorkbench

/-- Why the operating system refused a request. -/
inductive OsError where
  | notFound | notExecutable | permissionDenied | busy | alreadyExists | notDirectory
  | isDirectory | invalidArgument | textBusy | nameTooLong | notEmpty | loop
  | badDescriptor | noSpace
  | zeroInName | zeroInArgument | notText
  deriving DecidableEq, Repr

namespace OsError

/-- The text and the number of a refusal that the system numbers. -/
def numbered : OsError → Option (String × Nat)
  | notFound => some ("No such file or directory", 2)
  | notExecutable => some ("Exec format error", 8)
  | badDescriptor => some ("Bad file descriptor", 9)
  | permissionDenied => some ("Permission denied", 13)
  | busy => some ("Device or resource busy", 16)
  | alreadyExists => some ("File exists", 17)
  | notDirectory => some ("Not a directory", 20)
  | isDirectory => some ("Is a directory", 21)
  | invalidArgument => some ("Invalid argument", 22)
  | textBusy => some ("Text file busy", 26)
  | noSpace => some ("No space left on device", 28)
  | nameTooLong => some ("File name too long", 36)
  | notEmpty => some ("Directory not empty", 39)
  | loop => some ("Too many levels of symbolic links", 40)
  | zeroInName | zeroInArgument | notText => none

/-- The text of a refusal without its number. -/
def plain (e : OsError) : String := (e.numbered.map Prod.fst).getD ""

/-- The text of a refusal. -/
def message (e : OsError) : String :=
  match e.numbered with
  | some (text, number) => text ++ " (os error " ++ toString number ++ ")"
  | none =>
    match e with
    | zeroInName => "file name contained an unexpected NUL byte"
    | zeroInArgument => "nul byte found in provided data"
    | _ => "stream did not contain valid UTF-8"

end OsError
end SimWorkbench
