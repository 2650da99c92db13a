import SimWorkbench.CommandLine.Basic

/-!
# Help pages

A page says what a command is for, how it is written, and what its commands, arguments and options
mean, in columns of one width.
-/
namespace SimWorkbench.CommandLine

/-- The name and the version of the tool. -/
def toolName : String := "simforge"
def versionText : String := toolName ++ " 0.1.0"

namespace Level

/-- What a level is for. -/
def purpose : Level → String
  | top => "Compile, cache and run simulation models"
  | compile => "Generate and compile a model, or confirm its cached artifact"
  | run => "Compile if needed, then run a model"
  | cache => "Inspect and maintain the artifact cache"
  | cacheList => "List cached artifacts and known failures"
  | cacheInvalidate => "Forget one model's artifact and miss record"
  | cacheClear => "Forget everything and delete all cached artifacts"
  | cacheCollect => "Delete executables no cache entry refers to"
  | clean => "Remove all build output, including the cache"

/-- The words that lead to a level. -/
def words : Level → List String
  | top => [toolName]
  | compile => [toolName, "compile"]
  | run => [toolName, "run"]
  | cache => [toolName, "cache"]
  | cacheList => [toolName, "cache", "list"]
  | cacheInvalidate => [toolName, "cache", "invalidate"]
  | cacheClear => [toolName, "cache", "clear"]
  | cacheCollect => [toolName, "cache", "gc"]
  | clean => [toolName, "clean"]

end Level

/-- What a parameter is for. -/
def Parameter.purpose : Parameter → String
  | help => "Print help"
  | version => "Print version"
  | switch .force => "Recompile even if a valid cached artifact or miss record exists"
  | switch .quiet => "Show only errors and the final summary"
  | switch .verbose => "Enable verbose output with timing and cache diagnostics"
  | switch .modelVerbose => "Ask the model for verbose output"
  | slot .model => "Path to the model file"
  | slot .replications => "Number of replications (overrides simforge.toml)"
  | slot .stopTime => "Simulation stop time (overrides simforge.toml)"

/-- How an option is written: both names, and what stands for its value. -/
def Parameter.form (p : Parameter) (long : String) (short : Option Char) : String :=
  (match short with
    | some c => "-" ++ c.toString ++ ", "
    | none => "    ") ++ "--" ++ long ++
  match p with
  | .slot .replications => " <REPLICATIONS>"
  | .slot .stopTime => " <STOP_TIME>"
  | _ => ""

/-- Where an option stands on a page: a command's own options come first, then those that every
command has, and what only prints comes last. -/
def Parameter.place : Parameter → Nat
  | slot .replications => 0
  | slot .stopTime => 1
  | switch .modelVerbose => 2
  | switch .force => 3
  | switch .quiet => 4
  | switch .verbose => 5
  | help => 6
  | version | slot .model => 7

/-- A heading with entries in two columns; nothing without entries. -/
def columns (heading : String) (entries : List (String × String)) : List String :=
  if entries.isEmpty then []
  else
    let width := (entries.map fun e => e.1.length).foldl max 0
    let line (e : String × String) : String :=
      "  " ++ e.1 ++ String.ofList (List.replicate (width - e.1.length + 2) ' ') ++ e.2
    ["", heading] ++ entries.map line

/-- The purpose of the help command. -/
def helpPurpose : String := "Print this message or the help of the given subcommand(s)"

namespace Page

/-- The lines of a page. -/
def lines : Page → List String
  | help l =>
    [helpPurpose, "", "Usage: " ++ " ".intercalate (l.words ++ ["help [COMMAND]..."])] ++
      columns "Arguments:" [("[COMMAND]...", "Print help for the subcommand(s)")]
  | level l =>
    let model := if l.takesModel then ["<MODEL>"] else []
    let command := if l.isOpen then ["<COMMAND>"] else []
    let options := l.parameters.mergeSort fun p q => p.1.place ≤ q.1.place
    [l.purpose, "", "Usage: " ++ " ".intercalate (l.words ++ ["[OPTIONS]"] ++ model ++ command)] ++
      columns "Commands:" (l.commands.map (fun c => (c.1, c.2.purpose)) ++
        (if l.isOpen then [("help", helpPurpose)] else [])) ++
      columns "Arguments:" (model.map fun m => (m, (Parameter.slot .model).purpose)) ++
      columns "Options:" (options.map fun p => (p.1.form p.2.1 p.2.2, p.1.purpose))

end Page

namespace Refusal

/-- What is wrong with a line that makes no request. -/
def fault : Refusal → String
  | missingCommand => "a command is missing"
  | missingModel => "the following required arguments were not provided: <MODEL>"
  | unknownCommand => "unrecognized command"
  | unknownParameter => "unexpected argument found"
  | missingValue => "a value is required but none was supplied"
  | badValue => "invalid value for an option"
  | needlessValue => "unexpected value for an option that takes none"
  | conflict => "an argument cannot be used with another one, or twice"
  | help _ | version | nothingGiven _ => ""

/-- What is printed instead of a request. -/
def lines : Refusal → List String
  | help page => page.lines
  | version => [versionText]
  | nothingGiven level => (Page.level level).lines
  | r => ["error: " ++ r.fault, "", "For more information, try '--help'."]

end Refusal
end SimWorkbench.CommandLine
