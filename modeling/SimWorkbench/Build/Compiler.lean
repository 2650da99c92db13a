import SimWorkbench.Build.Naming
import SimWorkbench.Process.Basic
import SimWorkbench.Source.Diagnostic
import SimWorkbench.Text.Blank
import SimWorkbench.Text.Utf8

/-!
# Compilers

A compiler turns a source file into an executable and answers with a text: one fixed text for
success, any other text says what was wrong. Its identity are bytes that change with its version
and its settings.
-/
namespace SimWorkbench

/-- What a compiler is asked to do. -/
structure CompileJob where
  package : String
  typeName : String
  source : Path
  output : Path
  classpath : List Path
  deriving DecidableEq, Repr

/-- A compiler; both of its operations may change files. -/
structure Compiler where
  identity : FileTree → FileTree × Bytes
  compile : FileTree → CompileJob → FileTree × String

/-- The answer of a compiler that succeeded. -/
def compileSuccess : String := "compilation succeeded"

/-- Settings of the compiler that is a program. -/
structure CompilerSettings where
  binary : String := "rustc"
  edition : String := "2021"
  optLevel : UInt32 := 1
  extraArguments : List String := []
  deriving DecidableEq, Repr, Inhabited

namespace CompilerSettings

/-- The arguments for one place of the classpath: a directory is searched, a library is linked
and its directory searched, anything else is left out. -/
def placeArguments (files : FileTree) (here : Location) (place : Path) : List String :=
  if files.isDirectory here place then ["-L", place.text]
  else if place.extension? = some "rlib" then
    (match externName? place with
      | some name => ["--extern", name ++ "=" ++ place.text]
      | none => []) ++
    (match place.parent? with
      | some dir => ["-L", dir.text]
      | none => [])
  else []

/-- The arguments for a job. -/
def arguments (s : CompilerSettings) (files : FileTree) (here : Location) (job : CompileJob) :
    List String :=
  ["--crate-name", crateName job.package job.typeName, "--edition=" ++ s.edition,
   "--crate-type=bin", "-Copt-level=" ++ toString s.optLevel.toNat, "-o", job.output.text] ++
  job.classpath.flatMap (placeArguments files here) ++ s.extraArguments ++ [job.source.text]

/-- What a finished compile says: its error stream, then its output unless that is blank; a status
if both are blank. -/
def diagnosticOf (s : CompilerSettings) (ended : Except OsError Completed) : String :=
  match ended with
  | .error e => "failed to run " ++ s.binary ++ ": " ++ e.message
  | .ok out =>
    if out.status.success then compileSuccess
    else
      let stdout := Text.Utf8.decodeLossy out.stdout
      let text := Text.Utf8.decodeLossy out.stderr ++ (if Text.isAllBlank stdout then [] else stdout)
      if Text.isAllBlank text then s.binary ++ " exited with " ++ out.status.text
      else String.ofList text

/-- The settings as bytes: edition, level and extra arguments. -/
def bytes (s : CompilerSettings) : Bytes :=
  Bytes.ofString s.edition ++ Bytes.littleEndian 4 s.optLevel.toNat ++
    s.extraArguments.flatMap Bytes.ofString

/-- The bytes of an identity, from what the program printed about its version. -/
def identityOf (s : CompilerSettings) (ended : Except OsError Completed) : Bytes :=
  (match ended with
    | .ok out => out.stdout
    | .error _ => []) ++ s.bytes

/-- Whether the program can be run. -/
def available (s : CompilerSettings) (launch : Launcher) (files : FileTree) : FileTree × Bool :=
  let (files, ended) := launch files ⟨s.binary, ["-V"]⟩
  (files, (ended.toOption.map fun out => out.status.success).getD false)

/-- The compiler that runs a program. -/
def compiler (s : CompilerSettings) (launch : Launcher) (here : Location) : Compiler where
  identity files :=
    let (files, ended) := launch files ⟨s.binary, ["-vV"]⟩
    (files, s.identityOf ended)
  compile files job :=
    let (files, ended) := launch files ⟨s.binary, s.arguments files here job⟩
    (files, s.diagnosticOf ended)

end CompilerSettings
end SimWorkbench
