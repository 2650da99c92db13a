import SimWorkbench.Utility.Name

/-!
# Options of utilities

Utilities take options with letters and options with names. Options may stand behind operands, and a
name may be cut short as long as it stays clear which one is meant. Two dashes end the options.
-/
namespace SimWorkbench.Utility

open Shell

/-- Whether an option takes an argument. -/
inductive Takes where
  | nothing
  | argument
  /-- Only one that stands in the same word. -/
  | perhaps
  deriving DecidableEq, Repr

/-- An option of a utility. -/
structure OptionForm where
  /-- What the utility knows it as. -/
  key : Char
  takes : Takes
  /-- Whether the key is also its letter. -/
  isLetter : Bool
  names : List String

/-- An option that was given, by its key, with its argument and the word it stood in. -/
structure Given where
  key : Char
  argument : Option Chars
  word : Chars

/-- What a utility was called with. -/
structure Call where
  options : List Given
  operands : List Chars

/-- What is wrong with the options. -/
abbrev Misuse := Chars

namespace Call

def has (c : Call) (key : Char) : Bool := c.options.any fun o => o.key == key

/-- The argument of the last option with a key. -/
def last? (c : Call) (key : Char) : Option Chars :=
  (c.options.reverse.find? fun o => o.key == key).bind Given.argument

/-- The last given of some keys. -/
def lastOf? (c : Call) (keys : List Char) : Option Char :=
  (c.options.reverse.find? fun o => keys.contains o.key).map Given.key

end Call

/-- The options with letters in a word behind its dash, and the words behind them. -/
def readLetters (forms : List OptionForm) (word : Chars) :
    Chars → List Chars → Except Misuse (List Given × List Chars)
  | [], rest => .ok ([], rest)
  | c :: more, rest =>
    match forms.find? fun f => f.isLetter && f.key == c with
    | none => .error ("invalid option -- '".toList ++ [c, '\''])
    | some f =>
      match f.takes with
      | .nothing => do
        let (given, rest) ← readLetters forms word more rest
        return (⟨c, none, word⟩ :: given, rest)
      | .perhaps => .ok ([⟨c, if more.isEmpty then none else some more, word⟩], rest)
      | .argument =>
        match more, rest with
        | _ :: _, _ => .ok ([⟨c, some more, word⟩], rest)
        | [], argument :: rest => .ok ([⟨c, some argument, word⟩], rest)
        | [], [] => .error ("option requires an argument -- '".toList ++ [c, '\''])

/-- The options that a name can mean, with their full names: the one of exactly that name, or all
whose names begin with it. -/
def formsNamed (forms : List OptionForm) (name : Chars) : List (OptionForm × String) :=
  let named := forms.flatMap fun f => f.names.map fun n => (f, n)
  match named.find? fun x => x.2.toList = name with
  | some x => [x]
  | none => named.filter fun x => name.isPrefixOf x.2.toList

/-- The option with a name in a word behind its dashes, and the words behind it. -/
def readNamed (forms : List OptionForm) (word : Chars) (rest : List Chars) :
    Except Misuse (Given × List Chars) :=
  let name := word.takeWhile (· ≠ '=')
  let own := if name.length < word.length then some (word.drop (name.length + 1)) else none
  let said (name : Chars) : Chars := "option '--".toList ++ name ++ ['\'']
  match formsNamed forms name with
  | [] => .error ("unrecognized option '--".toList ++ word ++ ['\''])
  | (f, full) :: others =>
    if others.any fun x => x.1.key ≠ f.key then
      .error (said word ++ " is ambiguous; possibilities:".toList ++
        ((f, full) :: others).flatMap fun x => " '--".toList ++ x.2.toList ++ ['\''])
    else
      match f.takes, own, rest with
      | .nothing, some _, _ =>
        .error (said full.toList ++ " doesn't allow an argument".toList)
      | .argument, none, argument :: rest => .ok (⟨f.key, some argument, word⟩, rest)
      | .argument, none, [] => .error (said full.toList ++ " requires an argument".toList)
      | _, own, _ => .ok (⟨f.key, own, word⟩, rest)

/-- Reads the words of a call. The number bounds them. -/
def readCallFrom (forms : List OptionForm) : Nat → List Chars → Except Misuse Call
  | 0, words => .ok ⟨[], words⟩
  | _, [] => .ok ⟨[], []⟩
  | _, ['-', '-'] :: rest => .ok ⟨[], rest⟩
  | n + 1, ('-' :: '-' :: word) :: rest => do
    let (given, rest) ← readNamed forms word rest
    let call ← readCallFrom forms n rest
    return { call with options := given :: call.options }
  | n + 1, ('-' :: c :: more) :: rest => do
    let (given, rest) ← readLetters forms ('-' :: c :: more) (c :: more) rest
    let call ← readCallFrom forms n rest
    return { call with options := given ++ call.options }
  | n + 1, word :: rest => do
    let call ← readCallFrom forms n rest
    return { call with operands := word :: call.operands }

/-- Reads the words of a call. -/
def readCall (forms : List OptionForm) (words : List Chars) : Except Misuse Call :=
  readCallFrom forms (words.length + 1) words

/-- Tells what went wrong, behind the name of the utility. -/
def grumble (name : Chars) (text : Chars) : Exec Unit :=
  emit 2 (name ++ ": ".toList ++ text ++ ['\n'])

/-- Says where the use of a utility is explained. -/
def adviseHelp (name : Chars) : Exec Unit :=
  emit 2 ("Try '".toList ++ name ++ " --help' for more information.\n".toList)

end SimWorkbench.Utility
