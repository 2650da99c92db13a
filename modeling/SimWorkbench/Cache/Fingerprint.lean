import SimWorkbench.Bytes
import SimWorkbench.FileTree.Operations

/-!
# Fingerprints

A fingerprint is a digest over the contents of a list of files. Each file that can be read gives a
frame, its length in eight bytes and then its content, so that no byte can move from one file to
the next unseen; a file that cannot be read gives nothing. The digest is a parameter.
-/
namespace SimWorkbench

/-- Turns bytes into a short text. -/
abbrev Digest := Bytes → String

/-- The text of a digest over contents of files. -/
structure Fingerprint where
  hex : String
  deriving DecidableEq, Repr, Inhabited

namespace Fingerprint

/-- What one readable file adds to the digest's input. -/
def frame (content : Bytes) : Bytes := Bytes.littleEndian 8 content.length ++ content

/-- The input of the digest for what was read of each file. -/
def stream (readings : List (Option Bytes)) : Bytes := (readings.filterMap id).flatMap frame

/-- The fingerprint of what was read of each file. -/
def ofReadings (digest : Digest) (readings : List (Option Bytes)) : Fingerprint :=
  ⟨digest (stream readings)⟩

/-- What can be read of each file now. -/
def readings (files : FileTree) (here : Location) (paths : List Path) : List (Option Bytes) :=
  paths.map fun p => (files.read here p).toOption

/-- The fingerprint of the files as they are now. -/
def now (digest : Digest) (files : FileTree) (here : Location) (paths : List Path) : Fingerprint :=
  ofReadings digest (readings files here paths)

end Fingerprint

/-- The input of the digest for a compiler's identity and a classpath: a zero byte goes before
each path. -/
def environmentStream (identity : Bytes) (classpath : List Path) : Bytes :=
  identity ++ classpath.flatMap fun p => 0 :: Bytes.ofString p.text

/-- The digest that tells one build environment from another. -/
def environmentDigest (digest : Digest) (identity : Bytes) (classpath : List Path) : String :=
  digest (environmentStream identity classpath)

end SimWorkbench
