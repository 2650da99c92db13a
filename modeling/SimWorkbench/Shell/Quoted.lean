import SimWorkbench.Shell.Syntax

/-!
# Quoted text

A text is printed so that it can be read again: in single quotes, with the quotes it has itself
between double ones.
-/
namespace SimWorkbench.Shell

/-- Pieces in single quotes with double-quoted quotes between them. The number bounds the pieces. -/
def singleQuotedFrom : Nat → Chars → Chars
  | 0, _ => []
  | n + 1, text =>
    let front := text.takeWhile (· ≠ '\'')
    let quotes := (text.drop front.length).takeWhile (· = '\'')
    let rest := text.drop (front.length + quotes.length)
    '\'' :: front ++ '\'' ::
      (if quotes.isEmpty then []
       else '"' :: quotes ++ '"' :: if rest.isEmpty then [] else singleQuotedFrom n rest)

/-- A text in quotes. -/
def singleQuoted (text : Chars) : Chars := singleQuotedFrom (text.length + 1) text

end SimWorkbench.Shell
