import SimWorkbench.Run.Tail

/-!
# The end of a stream is what is kept

However a stream comes, in chunks and parts of chunks and with interruptions between them, what is
told of it are its last bytes, and what is kept meanwhile stays bounded.
-/
namespace SimWorkbench

/-! ### What a reader delivers -/

namespace Delivery

/-- The bytes that come with it. -/
def bytes : Delivery → Bytes
  | .chunk bytes _ => bytes
  | .interrupted | .failed => []

/-- Whether more may come after it: neither the end of the stream nor an error. -/
def goesOn : Delivery → Bool
  | .chunk bytes _ => !bytes.isEmpty
  | .interrupted => true
  | .failed => false

/-- All bytes of some deliveries. -/
def stream (deliveries : List Delivery) : Bytes := deliveries.flatMap bytes

theorem bytes_fit (d : Delivery) : d.bytes.length ≤ chunkLimit := by
  cases d with
  | chunk bytes fits => exact fits
  | interrupted => exact Nat.zero_le _
  | failed => exact Nat.zero_le _

end Delivery

namespace StreamTail

variable {t : StreamTail} {seen : Bytes}

/-! ### One step of a reading -/

theorem listen_of_ends {ending : Delivery} (ends : ending.goesOn = false) (later : List Delivery) :
    t.listen (ending :: later) = (t, true) := by
  match ending with
  | .chunk [] _ => rfl
  | .chunk (_ :: _) _ => cases ends
  | .interrupted => cases ends
  | .failed => rfl

/-- As long as nothing ends it, a reading goes on from where it is. -/
theorem listen_append {parts : List Delivery} (goOn : ∀ d ∈ parts, d.goesOn = true)
    (rest : List Delivery) : t.listen (parts ++ rest) = (t.listen parts).1.listen rest := by
  induction parts generalizing t with
  | nil => rfl
  | cons d parts ih =>
    have further : ∀ {t : StreamTail},
        t.listen (parts ++ rest) = (t.listen parts).1.listen rest :=
      ih fun d member => goOn d (List.mem_cons_of_mem _ member)
    match d, goOn d List.mem_cons_self with
    | .chunk (b :: bytes) _, _ => exact further
    | .interrupted, _ => exact further

/-! ### What is kept -/

/-- Whether what is kept is the end of what was seen, as much as is told at least, and never more
than twice that. -/
structure Keeps (t : StreamTail) (seen : Bytes) : Prop where
  isEnd : t.kept <:+ seen
  enough : tailLimit ≤ t.kept.length ∨ t.kept = seen
  bounded : t.kept.length ≤ 2 * tailLimit

theorem Keeps.start : ({} : StreamTail).Keeps [] :=
  ⟨List.suffix_refl _, .inr rfl, Nat.zero_le _⟩

theorem Keeps.take (keeps : t.Keeps seen) (chunk : Bytes) : (t.take chunk).Keeps (seen ++ chunk) := by
  obtain ⟨⟨front, rfl⟩, enough, -⟩ := keeps
  have all : t.kept ++ chunk <:+ front ++ t.kept ++ chunk := ⟨front, by simp⟩
  have length : (t.append chunk).kept.length = t.kept.length + chunk.length :=
    List.length_append
  unfold StreamTail.take StreamTail.trim
  split
  case isTrue long =>
    generalize rest : (t.append chunk).kept.length - tailLimit = n
    constructor
    · exact (List.drop_suffix n _).trans all
    · left
      simp only [List.length_drop]
      omega
    · simp only [List.length_drop]
      omega
  case isFalse short =>
    constructor
    · exact all
    · cases enough with
      | inl enough => left; omega
      | inr same => right; exact congrArg (· ++ chunk) same
    · omega

/-- What was kept before a delivery is kept with it, whatever comes of it. -/
theorem Keeps.listen (keeps : t.Keeps seen) {parts : List Delivery}
    (goOn : ∀ d ∈ parts, d.goesOn = true) :
    (t.listen parts).1.Keeps (seen ++ Delivery.stream parts) := by
  induction parts generalizing t seen with
  | nil =>
    rw [Delivery.stream, List.flatMap_nil, List.append_nil]
    exact keeps
  | cons d parts ih =>
    have further : ∀ d ∈ parts, d.goesOn = true :=
      fun d member => goOn d (List.mem_cons_of_mem _ member)
    match d, goOn d List.mem_cons_self with
    | .chunk (b :: bytes) _, _ =>
      rw [Delivery.stream, List.flatMap_cons, ← List.append_assoc]
      exact ih (keeps.take (b :: bytes)) further
    | .interrupted, _ =>
      exact ih keeps further

/-- A reading never keeps more than twice what is told, wherever it is. -/
theorem length_listen (bounded : t.kept.length ≤ 2 * tailLimit) (deliveries : List Delivery) :
    (t.listen deliveries).1.kept.length ≤ 2 * tailLimit := by
  induction deliveries generalizing t with
  | nil => exact bounded
  | cons d deliveries ih =>
    match d with
    | .chunk [] _ | .failed => exact bounded
    | .chunk (b :: bytes) _ =>
      apply ih
      have whole : t.Keeps t.kept := ⟨List.suffix_refl _, .inr rfl, bounded⟩
      exact (whole.take (b :: bytes)).bounded
    | .interrupted => exact ih bounded

/-- What is told of a stream are its last bytes. -/
theorem Keeps.bytes (keeps : t.Keeps seen) : t.bytes = seen.drop (seen.length - tailLimit) := by
  obtain ⟨⟨front, rfl⟩, enough | all, -⟩ := keeps
  · have early : (front ++ t.kept).length - tailLimit =
        front.length + (t.kept.length - tailLimit) := by
      rw [List.length_append]
      omega
    rw [early, List.drop_append, StreamTail.bytes]
    simp
  · rw [← all, StreamTail.bytes]

/-! ### A stream in chunks of the greatest size -/

theorem goesOn_go (n : Nat) (bytes : Bytes) : ∀ d ∈ chunks.go n bytes, d.goesOn = true := by
  induction n generalizing bytes with
  | zero => simp [chunks.go]
  | succ n ih =>
    cases bytes with
    | nil => simp [chunks.go]
    | cons b rest =>
      intro d member
      rw [chunks.go, List.mem_cons] at member
      obtain rfl | member := member
      · rfl
      · exact ih _ d member

theorem stream_go {n : Nat} {bytes : Bytes} (short : bytes.length ≤ n) :
    Delivery.stream (chunks.go n bytes) = bytes := by
  induction n generalizing bytes with
  | zero =>
    rw [List.length_eq_zero_iff.mp (Nat.le_zero.mp short)]
    rfl
  | succ n ih =>
    cases bytes with
    | nil => rfl
    | cons b rest =>
      have shorter : ((b :: rest).drop chunkLimit).length ≤ n := by
        rw [List.length_drop, chunkLimit]
        simp only [List.length_cons] at short ⊢
        omega
      calc Delivery.stream (chunks.go (n + 1) (b :: rest))
          = (b :: rest).take chunkLimit ++
              Delivery.stream (chunks.go n ((b :: rest).drop chunkLimit)) := rfl
        _ = (b :: rest).take chunkLimit ++ (b :: rest).drop chunkLimit := by rw [ih shorter]
        _ = b :: rest := List.take_append_drop chunkLimit (b :: rest)

theorem Keeps.takeAll (keeps : t.Keeps seen) (part : Bytes) :
    (t.takeAll part).Keeps (seen ++ part) := by
  have heard := keeps.listen (goesOn_go part.length part)
  rw [stream_go (Nat.le_refl _)] at heard
  exact heard

/-! ### A whole reading -/

theorem readTail_eq (deliveries : List Delivery) :
    readTail deliveries = if (({} : StreamTail).listen deliveries).2 then
      some (({} : StreamTail).listen deliveries).1.text else none := rfl

/-- A reading that is ended tells the end of what it was delivered, whatever would come later. -/
theorem readTail_of_ends {parts later : List Delivery} {ending : Delivery}
    (goOn : ∀ d ∈ parts, d.goesOn = true) (ends : ending.goesOn = false) :
    readTail (parts ++ ending :: later) = some (Text.Utf8.toStringLossy
      ((Delivery.stream parts).drop ((Delivery.stream parts).length - tailLimit))) := by
  have heard := Keeps.start.listen goOn
  rw [List.nil_append] at heard
  rw [readTail_eq, listen_append goOn, listen_of_ends ends, if_pos rfl, text, heard.bytes]

/-- However a stream is delivered, in chunks of whatever sizes and with interruptions anywhere, and
whether its end or an error ends it: what is told are its last bytes, as many as the limit admits.
Whatever has been heard, at most twice the limit is kept, and one chunk more while it is
appended. -/
theorem readTail_delivered (parts later : List Delivery) (ending : Delivery)
    (goOn : ∀ d ∈ parts, d.goesOn = true) (ends : ending.goesOn = false) :
    (∃ told, told <:+ Delivery.stream parts ∧
      told.length = min (Delivery.stream parts).length tailLimit ∧
      readTail (parts ++ ending :: later) = some (Text.Utf8.toStringLossy told)) ∧
    ∀ (heard : List Delivery) (next : Delivery),
      (({} : StreamTail).listen heard).1.kept.length ≤ 2 * tailLimit ∧
      ((({} : StreamTail).listen heard).1.append next.bytes).kept.length ≤
        2 * tailLimit + chunkLimit := by
  constructor
  · refine ⟨_, List.drop_suffix _ _, ?_, readTail_of_ends goOn ends⟩
    rw [List.length_drop]
    omega
  · intro heard next
    have bounded : (({} : StreamTail).listen heard).1.kept.length ≤ 2 * tailLimit :=
      length_listen Keeps.start.bounded heard
    have fits : next.bytes.length ≤ chunkLimit := next.bytes_fit
    refine ⟨bounded, ?_⟩
    rw [append, List.length_append]
    omega

/-- Chunks of noise with interruptions among them, and a last word. -/
def noisy : List Delivery :=
  List.replicate 5 noise ++ .interrupted :: List.replicate 4 noise ++
    [.interrupted, .chunk [111, 104, 33] (by decide)]
where
  noise : Delivery := .chunk (List.replicate chunkLimit 120) (Nat.le_of_eq List.length_replicate)

/-- After more noise than is ever kept, an error leaves as much to tell as the limit admits. -/
theorem readTail_delivered_noisy :
    (∀ d ∈ noisy, d.goesOn = true) ∧ Delivery.failed.goesOn = false ∧
    (Delivery.stream noisy).length = 9 * 1024 + 3 ∧
    ∃ told, told <:+ Delivery.stream noisy ∧ told.length = 4096 ∧
      readTail (noisy ++ [.failed]) = some (Text.Utf8.toStringLossy told) := by
  have goOn : ∀ d ∈ noisy, d.goesOn = true := by decide
  have length : (Delivery.stream noisy).length = 9 * 1024 + 3 := by
    have full : noisy.noise.bytes.length = 1024 := List.length_replicate
    simp only [Delivery.stream, List.length_flatMap, noisy, List.map_append, List.map_cons,
      List.map_replicate, full]
    rfl
  obtain ⟨told, isEnd, size, answer⟩ := (readTail_delivered noisy [] .failed goOn rfl).1
  refine ⟨goOn, rfl, length, told, isEnd, ?_, answer⟩
  rw [size, length]
  rfl

end StreamTail
end SimWorkbench
