import SimWorkbench.Bytes
import SimWorkbench.Text.Utf8

/-!
# The end of a stream

Of an error stream only the end is kept. A reader is asked for chunks until the stream has ended or
cannot be read any more; a chunk is appended as it comes, and when too much has gathered, the front
is dropped.
-/
namespace SimWorkbench

/-- How many bytes of an error stream are told. -/
def tailLimit : Nat := 4096

/-- How many bytes come at once at most. -/
def chunkLimit : Nat := 1024

/-- What a reader answers when it is asked for a chunk. -/
inductive Delivery where
  /-- Bytes that have come. No bytes are the end of the stream. -/
  | chunk (bytes : Bytes) (fits : bytes.length ≤ chunkLimit)
  | interrupted
  | failed
  deriving DecidableEq, Repr

/-- The bytes kept so far. -/
structure StreamTail where
  kept : Bytes := []
  deriving DecidableEq, Repr, Inhabited

namespace StreamTail

def append (t : StreamTail) (chunk : Bytes) : StreamTail := ⟨t.kept ++ chunk⟩

/-- Drops the front of what is kept if that is more than twice the limit. -/
def trim (t : StreamTail) : StreamTail :=
  if 2 * tailLimit < t.kept.length then ⟨t.kept.drop (t.kept.length - tailLimit)⟩ else t

/-- Appends a chunk; twice the limit is the most that stays. -/
def take (t : StreamTail) (chunk : Bytes) : StreamTail := (t.append chunk).trim

/-- The last bytes, up to the limit. -/
def bytes (t : StreamTail) : Bytes := t.kept.drop (t.kept.length - tailLimit)

def text (t : StreamTail) : String := Text.Utf8.toStringLossy t.bytes

/-- Takes what a reader delivers until the stream has ended or cannot be read any more; the flag
says whether it came to that. An interruption changes nothing. -/
def listen (t : StreamTail) : List Delivery → StreamTail × Bool
  | [] => (t, false)
  | .chunk [] _ :: _ | .failed :: _ => (t, true)
  | .chunk (b :: rest) _ :: later => (t.take (b :: rest)).listen later
  | .interrupted :: later => t.listen later

/-- What is told of a stream that was read to its end; none as long as more may come. -/
def readTail (deliveries : List Delivery) : Option String :=
  let (t, ended) := ({} : StreamTail).listen deliveries
  if ended then some t.text else none

/-- A stream in chunks of the greatest size. -/
def chunks (stream : Bytes) : List Delivery := go stream.length stream
where
  go : Nat → Bytes → List Delivery
    | 0, _ => []
    | _, [] => []
    | n + 1, b :: rest =>
      .chunk ((b :: rest).take chunkLimit) (List.length_take_le _ _) ::
        go n ((b :: rest).drop chunkLimit)

/-- Takes a part of a stream, as it comes in chunks of the greatest size. -/
def takeAll (t : StreamTail) (part : Bytes) : StreamTail := (t.listen (chunks part)).1

end StreamTail
end SimWorkbench
