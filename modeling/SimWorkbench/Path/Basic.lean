/-!
# Paths

A path is a text whose segments are separated by slashes. Two spellings name the same path when
their components agree: empty segments and single dots carry no component, except that a leading
slash is the root and a leading dot the current directory. Operations keep the spelling of what
they keep.
-/
namespace SimWorkbench

/-- A path as it was written. -/
structure Path where
  text : String
  deriving DecidableEq, Repr, Inhabited

namespace Path

/-- What a segment of a path stands for. -/
inductive Component where
  | root | current | parent
  | name (text : String)
  deriving DecidableEq, Repr

/-- How a component is written. -/
def Component.text : Component → String
  | .root => "/"
  | .current => "."
  | .parent => ".."
  | .name text => text

/-- The pieces between the slashes; there is always one. -/
def segments (p : Path) : List (List Char) := p.text.toList.splitOn '/'

/-- The path with these segments. -/
def ofSegments (segments : List (List Char)) : Path :=
  ⟨String.ofList (['/'].intercalate segments)⟩

def isAbsolute (p : Path) : Bool := p.text.toList.head? == some '/'

/-- Whether a segment after the first carries no component. -/
def isIdle (segment : List Char) : Bool := segment == [] || segment == ['.']

/-- The component of a segment after the first, if it carries one. -/
def componentOf (segment : List Char) : Option Component :=
  if isIdle segment then none
  else if segment = ['.', '.'] then some .parent
  else some (.name (String.ofList segment))

/-- The components of a path, from the front. -/
def components (p : Path) : List Component :=
  match p.segments with
  | [] => []
  | first :: rest =>
    let head :=
      if p.isAbsolute then some .root
      else if first = ['.'] then some .current
      else componentOf first
    head.toList ++ rest.filterMap componentOf

/-- The order of components: root, current, parent, then names by their characters. -/
def Component.sortKey : Component → List Nat
  | .root => [0]
  | .current => [1]
  | .parent => [2]
  | .name text => 3 :: text.toList.map Char.toNat

/-- Paths are compared component by component. -/
def sortKey (p : Path) : List (List Nat) := p.components.map Component.sortKey

/-- Whether two spellings name the same path. -/
def same (p q : Path) : Bool := p.sortKey == q.sortKey

/-- Whether `p` comes before `q`. -/
def precedes (p q : Path) : Bool := p.sortKey < q.sortKey

/-- `q` as seen from the directory `p`; an absolute `q` stands for itself. -/
def join (p q : Path) : Path :=
  if q.isAbsolute then q
  else if p.text.isEmpty || p.text.toList.getLast? == some '/' then ⟨p.text ++ q.text⟩
  else ⟨p.text ++ "/" ++ q.text⟩

/-- `p` followed by a name. -/
def child (p : Path) (name : String) : Path := p.join ⟨name⟩

/-- Drops the segments at the end that carry no component; the first one stays. -/
def trimSegments : List (List Char) → List (List Char)
  | [] => []
  | first :: rest => first :: (rest.reverse.dropWhile isIdle).reverse

/-- The path with these segments, where an empty first one alone is the root. -/
def ofTrimmed (segments : List (List Char)) (absolute : Bool) : Path :=
  if absolute && segments == [[]] then ⟨"/"⟩ else ofSegments segments

/-- The path without its last component; none for the root and the empty path. -/
def parent? (p : Path) : Option Path :=
  match trimSegments p.segments with
  | [] => none
  | [first] => if first.isEmpty then none else some ⟨""⟩
  | first :: rest => some (ofTrimmed (trimSegments (first :: rest.dropLast)) p.isAbsolute)

/-- The path and what `parent?` makes of it again and again. -/
def ancestors (p : Path) : List Path := go p.segments.length p
where
  go : Nat → Path → List Path
    | 0, p => [p]
    | fuel + 1, p => p :: ((p.parent?).map (go fuel)).getD []

/-- The last component, if it is a name. -/
def fileName? (p : Path) : Option String :=
  match p.components.getLast? with
  | some (.name text) => some text
  | _ => none

/-- A file name before and after its last dot; a dot in front does not count. -/
def splitName (name : String) : String × Option String :=
  let reversed := name.toList.reverse
  let after := reversed.takeWhile (· != '.')
  match reversed.drop after.length with
  | [] => (name, none)
  | _ :: before =>
    if before.isEmpty then (name, none)
    else (String.ofList before.reverse, some (String.ofList after.reverse))

/-- The file name without its extension. -/
def stem? (p : Path) : Option String := p.fileName?.map fun n => (splitName n).1

/-- What follows the last dot of the file name. -/
def extension? (p : Path) : Option String := p.fileName?.bind fun n => (splitName n).2

/-- Drops segments from the front until `n` of them carried a component. -/
def dropComponents : Nat → List (List Char) → List (List Char)
  | 0, segments => segments
  | _, [] => []
  | n + 1, s :: rest => if isIdle s then dropComponents (n + 1) rest else dropComponents n rest

/-- The rest of `p` below the directory `base`; none if `p` does not lie there. -/
def below? (base p : Path) : Option Path :=
  let b := base.components
  if b.isPrefixOf p.components then
    if b.isEmpty then some (ofTrimmed (trimSegments p.segments) p.isAbsolute)
    else
      let rest := (dropComponents (b.length - 1) p.segments.tail).dropWhile isIdle
      some (ofSegments (rest.reverse.dropWhile isIdle).reverse)
  else none

/-- The path seen from the root, without looking at any file: single dots and repeated slashes
disappear, double dots and a slash at the end stay, and so do two slashes in front. None for the
empty path. -/
def absolute? (p current : Path) : Option Path :=
  if p.text.isEmpty then none
  else
    let components := ((below? ⟨"."⟩ p).getD p).components
    let doubled := "//".toList.isPrefixOf p.text.toList && !"///".toList.isPrefixOf p.text.toList
    let start := if doubled then ⟨"//"⟩ else if p.isAbsolute then ⟨""⟩ else current
    let steps := if doubled then components.tail else components
    let full := steps.foldl (fun acc c => acc.join ⟨c.text⟩) start
    some (if p.text.toList.getLast? == some '/' then full.join ⟨""⟩ else full)

/-- The path seen from the root; the empty path stays as it is. -/
def normalised (p current : Path) : Path := (p.absolute? current).getD p

/-- Several paths in one text, separated by colons; none if a path has a colon of its own. -/
def joinList? (paths : List Path) : Option String :=
  if paths.any fun p => p.text.toList.contains ':' then none
  else some (":".intercalate (paths.map Path.text))

/-- The paths of a text in which colons separate them. -/
def splitList (text : String) : List Path :=
  (text.toList.splitOn ':').map fun s => ⟨String.ofList s⟩

end Path
end SimWorkbench
