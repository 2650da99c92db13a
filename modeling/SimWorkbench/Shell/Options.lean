import SimWorkbench.Shell.State

/-!
# Options of commands

Options are letters in words that begin with a dash, in front of the other words of a command. The
argument of an option is the rest of its word, or else the next word. Two dashes end the options.
-/
namespace SimWorkbench.Shell

/-- The options that a command was given, with their arguments, and the words behind them. -/
structure Options where
  given : List (Char × Chars)
  words : List Chars

def Options.has (o : Options) (letter : Char) : Bool := o.given.any fun x => x.1 == letter

/-- The options in a word, whose dash is gone; `known` says which of them take an argument. -/
def readLetters (known : List (Char × Bool)) : Chars → List Chars → Exec Options
  | [], words => return ⟨[], words⟩
  | letter :: more, words => do
    match known.lookup letter, more, words with
    | none, _, _ => abort ("Illegal option -".toList ++ [letter])
    | some false, _, _ => do
      let o ← readLetters known more words
      return { o with given := (letter, []) :: o.given }
    | some true, _ :: _, _ => return ⟨[(letter, more)], words⟩
    | some true, [], argument :: words => return ⟨[(letter, argument)], words⟩
    | some true, [], [] => abort ("No arg for -".toList ++ letter :: " option".toList)

/-- The options in front of some words. The number bounds the words. -/
def readOptionsFrom (known : List (Char × Bool)) : Nat → List Chars → Exec Options
  | 0, words => return ⟨[], words⟩
  | _, ['-', '-'] :: words => return ⟨[], words⟩
  | n + 1, ('-' :: letter :: more) :: words => do
    let o ← readLetters known (letter :: more) words
    let others ← readOptionsFrom known n o.words
    return ⟨o.given ++ others.given, others.words⟩
  | _, words => return ⟨[], words⟩

/-- The options in front of some words. -/
def readOptions (known : List (Char × Bool)) (words : List Chars) : Exec Options :=
  readOptionsFrom known (words.length + 1) words

end SimWorkbench.Shell
