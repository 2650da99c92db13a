import SimWorkbench.Cache.Index
import SimWorkbench.Proofs.Json.Reading
import SimWorkbench.Proofs.Keyed

/-!
# The index document is read back

The document that the writer makes of an index holds that index and nothing else: every member has
a line of its own, its name is one the reader asks for, and a record is read back whole. So nothing
that the cache saves is lost by saving it.
-/
namespace SimWorkbench.Index

open Json

theorem denotesMember_member {value : List Char} {v : Value} (depth : Nat) (name : String)
    (h : Denotes value v) : DenotesMember (member depth name value) (some name.toList, v) := by
  refine ⟨List.replicate (2 * depth) ' ', name.toList, value, ?_, skipBlanks_replicate _, rfl, h⟩
  simp [member, indent]

theorem block_cons (depth : Nat) (opening closing : Char) (x : List Char) (xs : List (List Char)) :
    block depth opening closing (x :: xs) =
      opening :: '\n' :: (x ++ (moreLines xs ++ lastLine (2 * depth) closing)) := by
  simp [block, intercalate_lines, indent, lastLine]

theorem denotes_arrayBlock {items : List (List Char)} {values : List Value} (depth : Nat)
    (h : List.Forall₂ Denotes items values) :
    Denotes (block depth '[' ']' items) (.array values) := by
  cases h with
  | nil => exact denotes_noElements
  | cons first others =>
    rw [block_cons]
    exact denotes_array (2 * depth) first others

theorem denotes_objectBlock {x : List Char} {m : Option (List Char) × Value}
    {xs : List (List Char)} {ms : List (Option (List Char) × Value)} (depth : Nat)
    (first : DenotesMember x m) (others : List.Forall₂ DenotesMember xs ms) :
    Denotes (block depth '\x7b' '\x7d' (x :: xs)) (.object (m :: ms)) := by
  rw [block_cons]
  exact denotes_object (2 * depth) first others

theorem eraseDups_of_nodup {α : Type} [BEq α] [LawfulBEq α] {list : List α} (h : list.Nodup) :
    list.eraseDups = list := by
  induction list with
  | nil => rfl
  | cons a list ih =>
    obtain ⟨fresh, rest⟩ := List.nodup_cons.mp h
    have kept : (list.filter fun b => !b == a) = list := by
      rw [List.filter_eq_self]
      rintro b member
      simp only [Bool.not_eq_true', beq_eq_false_iff_ne]
      rintro rfl
      exact fresh member
    rw [List.eraseDups_cons, kept, ih rest]

theorem mapM_some {α β : Type} {f : α → Option β} {g : α → β} {list : List α}
    (h : ∀ a ∈ list, f a = some (g a)) : list.mapM f = some (list.map g) := by
  induction list with
  | nil => rfl
  | cons a list ih =>
    rw [List.mapM_cons, h a (by simp), ih fun b member => h b (by simp [member])]
    rfl

/-- The fields of an object that has the names asked for, each once and in order. -/
theorem fields?_object (members : List (String × Value)) (unique : (members.map Prod.fst).Nodup) :
    fields? (members.map Prod.fst) (.object (members.map fun m => (some m.1.toList, m.2))) =
      some (members.map fun m => some m.2) := by
  have texts : (members.map fun m => (some m.1.toList, m.2)).mapM Prod.fst =
      some (members.map fun m => m.1.toList) := by
    rw [List.mapM_map]
    exact mapM_some fun m _ => rfl
  have named : ((members.map fun m => m.1.toList).filter fun k =>
      (members.map Prod.fst).contains (String.ofList k)) = members.map fun m => m.1.toList := by
    rw [List.filter_eq_self]
    intro k isKey
    obtain ⟨m, isMember, rfl⟩ := List.mem_map.mp isKey
    simpa using ⟨m.2, isMember⟩
  have distinct : (members.map fun m => m.1.toList).Nodup := by
    have split : (members.map fun m => m.1.toList) = (members.map Prod.fst).map String.toList := by
      simp
    rw [split]
    exact unique.map fun _ _ => String.toList_injective
  have found : ∀ m ∈ members, ((members.map fun m => (some m.1.toList, m.2)).find? fun n =>
      n.1 == some m.1.toList) = some (some m.1.toList, m.2) := by
    intro m isMember
    refine Keyed.find?_of_mem Prod.fst (x := (some m.1.toList, m.2)) ?_ ?_
    · have split : (members.map fun m => (some m.1.toList, m.2)).map Prod.fst =
          (members.map fun m => m.1.toList).map some := by simp
      rw [split]
      exact distinct.map (Option.some_injective _)
    · exact List.mem_map.mpr ⟨m, isMember, rfl⟩
  simp only [fields?, texts, Option.bind_eq_bind, Option.bind_some, named,
    eraseDups_of_nodup distinct, if_true, List.map_map, Option.some.injEq]
  refine List.map_congr_left fun m isMember => ?_
  simp only [Function.comp_apply, found m isMember, Option.map_some]

/-- A text as a value. -/
def textOf (text : String) : Value := .string (some text.toList)

theorem denotes_textValue (text : String) : Denotes (textValue text) (textOf text) :=
  denotes_quote text.toList

theorem text?_textOf (text : String) : text? (textOf text) = some text := by
  simp [text?, textOf]

/-- The value that a descriptor is written as. -/
def descriptorValue (d : Descriptor) : Value :=
  .object ([("xml", textOf d.source.text), ("class", textOf d.artifact.text),
    ("package", textOf d.package), ("digest", textOf d.fingerprint.hex)].map fun m =>
      (some m.1.toList, m.2))

theorem denotes_descriptor (d : Descriptor) : Denotes (writeDescriptor d) (descriptorValue d) := by
  refine Denotes.indent (2 * 2) (denotes_objectBlock 2 ?_ ?_)
  · exact denotesMember_member 3 "xml" (denotes_textValue _)
  · exact .cons (denotesMember_member 3 "class" (denotes_textValue _))
      (.cons (denotesMember_member 3 "package" (denotes_textValue _))
        (.cons (denotesMember_member 3 "digest" (denotes_textValue _)) .nil))

theorem readDescriptor?_value (d : Descriptor) : readDescriptor? (descriptorValue d) = some d := by
  have fields : fields? ["xml", "class", "package", "digest"] (descriptorValue d) =
      some [some (textOf d.source.text), some (textOf d.artifact.text), some (textOf d.package),
        some (textOf d.fingerprint.hex)] :=
    fields?_object [("xml", textOf d.source.text), ("class", textOf d.artifact.text),
      ("package", textOf d.package), ("digest", textOf d.fingerprint.hex)] (by simp)
  simp [readDescriptor?, fields, text?_textOf]

/-- The value that a miss is written as. -/
def missValue (m : Miss) : Value :=
  .object ([("file", textOf m.source.text), ("digest", textOf m.fingerprint.hex)].map fun m =>
    (some m.1.toList, m.2))

theorem denotes_miss (m : Miss) : Denotes (writeMiss m) (missValue m) := by
  refine Denotes.indent (2 * 2) (denotes_objectBlock 2 ?_ ?_)
  · exact denotesMember_member 3 "file" (denotes_textValue _)
  · exact .cons (denotesMember_member 3 "digest" (denotes_textValue _)) .nil

theorem readMiss?_value (m : Miss) : readMiss? (missValue m) = some m := by
  have fields : fields? ["file", "digest"] (missValue m) =
      some [some (textOf m.source.text), some (textOf m.fingerprint.hex)] :=
    fields?_object [("file", textOf m.source.text), ("digest", textOf m.fingerprint.hex)] (by simp)
  simp [readMiss?, fields, text?_textOf]

/-- The value that an index is written as. -/
def value (i : Index) : Value :=
  .object ([("version", .number ['1']), ("environment", textOf i.environment),
    ("entries", .array (i.entries.map descriptorValue)),
    ("misses", .array (i.misses.map missValue))].map fun m => (some m.1.toList, m.2))

theorem denotes_write (i : Index) : Denotes i.write i.value := by
  refine denotes_objectBlock 0 ?_ ?_
  · exact denotesMember_member 1 "version" (denotes_digit (by decide))
  · refine .cons (denotesMember_member 1 "environment" (denotes_textValue _))
      (.cons (denotesMember_member 1 "entries" (denotes_arrayBlock 1 ?_))
        (.cons (denotesMember_member 1 "misses" (denotes_arrayBlock 1 ?_)) .nil))
    · exact List.forall₂_map_left_iff.mpr (List.forall₂_map_right_iff.mpr
        (List.forall₂_same.mpr fun d _ => denotes_descriptor d))
    · exact List.forall₂_map_left_iff.mpr (List.forall₂_map_right_iff.mpr
        (List.forall₂_same.mpr fun m _ => denotes_miss m))

theorem ofJson?_value (i : Index) : ofJson? i.value = some i := by
  have fields : fields? ["version", "environment", "entries", "misses"] i.value =
      some [some (.number ['1']), some (textOf i.environment),
        some (.array (i.entries.map descriptorValue)), some (.array (i.misses.map missValue))] :=
    fields?_object [("version", .number ['1']), ("environment", textOf i.environment),
      ("entries", .array (i.entries.map descriptorValue)),
      ("misses", .array (i.misses.map missValue))] (by simp)
  have entries : (i.entries.map descriptorValue).mapM readDescriptor? = some i.entries := by
    rw [List.mapM_map, mapM_some (g := id) (fun d _ => ?_), List.map_id]
    exact readDescriptor?_value d
  have misses : (i.misses.map missValue).mapM readMiss? = some i.misses := by
    rw [List.mapM_map, mapM_some (g := id) (fun m _ => ?_), List.map_id]
    exact readMiss?_value m
  have isCurrent : isVersion (.number ['1']) = true := by decide
  simp [ofJson?, fields, isCurrent, text?_textOf, records?, entries, misses]

/-- The document of an index is read back as that index. -/
theorem read?_write (i : Index) : read? i.write = some i := by
  rw [read?, (denotes_write i).read?, Option.bind_some, ofJson?_value]

end SimWorkbench.Index
