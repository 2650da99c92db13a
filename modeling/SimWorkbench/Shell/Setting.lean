import SimWorkbench.Shell.Syntax

/-!
# Settings of a script

Settings are switched on and off by the script; most have a letter as well as a name.
-/
namespace SimWorkbench.Shell

/-- What a script can switch on and off. -/
inductive Setting where
  /-- A failing command ends the script, unless its status is looked at. -/
  | errexit
  /-- Names of files are not looked for. -/
  | noglob
  | ignoreeof
  | interactive
  | monitor
  /-- Commands are read and not carried out. -/
  | noexec
  | stdin
  /-- Commands are shown before they are carried out. -/
  | xtrace
  /-- Lines are shown as they are read. -/
  | verbose
  | vi
  | emacs
  /-- Files are not emptied by a redirection. -/
  | noclobber
  /-- Every variable that is set is seen by programs. -/
  | allexport
  | notify
  /-- The value of an unset parameter ends the script. -/
  | nounset
  | privileged
  | nolog
  | debug
  deriving DecidableEq, Repr

namespace Setting

/-- All settings, with name and letter, in the order in which they are listed. -/
def table : List (Setting × String × Option Char) :=
  [(errexit, "errexit", some 'e'), (noglob, "noglob", some 'f'),
   (ignoreeof, "ignoreeof", some 'I'), (interactive, "interactive", some 'i'),
   (monitor, "monitor", some 'm'), (noexec, "noexec", some 'n'), (stdin, "stdin", some 's'),
   (xtrace, "xtrace", some 'x'), (verbose, "verbose", some 'v'), (vi, "vi", some 'V'),
   (emacs, "emacs", some 'E'), (noclobber, "noclobber", some 'C'),
   (allexport, "allexport", some 'a'), (notify, "notify", some 'b'),
   (nounset, "nounset", some 'u'), (privileged, "privileged", some 'p'), (nolog, "nolog", none),
   (debug, "debug", none)]

def ofName? (name : Chars) : Option Setting :=
  (table.find? fun row => row.2.1.toList = name).map Prod.fst

def ofLetter? (letter : Char) : Option Setting :=
  (table.find? fun row => row.2.2 = some letter).map Prod.fst

/-- The letters of the settings that are on, the last one of the table first. -/
def letters (on : List Setting) : Chars :=
  table.reverse.filterMap fun row => if on.contains row.1 then row.2.2 else none

/-- The settings after one was switched. -/
def switch (on : List Setting) (s : Setting) (value : Bool) : List Setting :=
  let others := on.filter (· != s)
  if value then s :: others else others

/-- The settings after one was switched by its letter: two of them exclude each other. -/
def switchByLetter (on : List Setting) (s : Setting) (value : Bool) : List Setting :=
  let others := on.filter fun x => !(value && ((s == vi && x == emacs) || (s == emacs && x == vi)))
  switch others s value

/-- The list of all settings with their state. -/
def listing (on : List Setting) : Chars :=
  "Current option settings\n".toList ++ table.flatMap fun row =>
    row.2.1.toList ++ List.replicate (16 - row.2.1.length) ' ' ++
      (if on.contains row.1 then "on\n" else "off\n").toList

/-- The commands that make all settings what they are. -/
def commands (on : List Setting) : Chars :=
  table.flatMap fun row =>
    (if on.contains row.1 then "set -o " else "set +o ").toList ++ row.2.1.toList ++ ['\n']

end Setting
end SimWorkbench.Shell
