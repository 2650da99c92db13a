import SimWorkbench.Proofs.Cache.IndexDocument

/-!
# Which values are index documents

A record is an object in which none of its fields is given twice, or an array of the fields in their
order; fields at the end that are missing have no value. The reader takes a value for an index exactly
if it is such a record of the present version whose lists hold records of entries and of misses, and
it gives the index that the value encodes.
-/
namespace SimWorkbench.Index
open Json

theorem length_eraseDups_le {α : Type} [BEq α] [LawfulBEq α] (list : List α) :
    list.eraseDups.length ≤ list.length := by
  induction n : list.length using Nat.strong_induction_on generalizing list with
  | _ n ih =>
    cases list with
    | nil => simp
    | cons x rest =>
      simp only [List.length_cons] at n
      have fewer := List.length_filter_le (fun y => !(y == x)) rest
      have shorter := ih _ (by omega) (rest.filter fun y => !(y == x)) rfl
      rw [List.eraseDups_cons, List.length_cons]
      omega

/-- A list that keeps its length when repetitions are erased has none. -/
theorem nodup_of_length_eraseDups {α : Type} [BEq α] [LawfulBEq α] {list : List α}
    (same : list.eraseDups.length = list.length) : list.Nodup := by
  induction list with
  | nil => exact .nil
  | cons x rest ih =>
    rw [List.eraseDups_cons, List.length_cons, List.length_cons] at same
    have shorter := length_eraseDups_le (rest.filter fun y => !(y == x))
    have fewer := List.length_filter_le (fun y => !(y == x)) rest
    have whole : rest.filter (fun y => !(y == x)) = rest :=
      List.filter_eq_self.mpr (List.length_filter_eq_length_iff.mp (by omega))
    have absent : x ∉ rest := by
      intro member
      have kept := List.filter_eq_self.mp whole x member
      simp at kept
    rw [whole] at same
    exact List.nodup_cons.mpr ⟨absent, ih (by omega)⟩

/-- Whether a value is a record with the given fields; a field may have no value. -/
inductive IsRecord : Value → List (String × Option Value) → Prop where
  | object {members : List (Option (List Char) × Value)} {fields : List (String × Option Value)}
      (texts : ∀ m ∈ members, m.1.isSome = true)
      (once : ∀ f ∈ fields,
        (members.filter fun m => m.1 == some f.1.toList).map Prod.snd = f.2.toList) :
      IsRecord (.object members) fields
  | array {elements : List Value} {fields : List (String × Option Value)}
      (fits : elements.length ≤ fields.length)
      (inOrder : fields.map Prod.snd =
        elements.map some ++ List.replicate (fields.length - elements.length) none) :
      IsRecord (.array elements) fields

theorem mapM_fst_eq_some {β : Type} {members : List (Option (List Char) × β)}
    {keys : List (List Char)} (read : members.mapM Prod.fst = some keys) :
    members.map Prod.fst = keys.map some := by
  induction members generalizing keys with
  | nil =>
    simp only [List.mapM_nil, Option.pure_def, Option.some.injEq] at read
    simp [← read]
  | cons m rest ih =>
    simp only [List.mapM_cons, Option.bind_eq_bind, Option.bind_eq_some_iff, Option.pure_def,
      Option.some.injEq] at read
    obtain ⟨key, first, others, readOthers, rfl⟩ := read
    simp [first, ih readOthers]

theorem exists_mapM_fst {β : Type} {members : List (Option (List Char) × β)}
    (texts : ∀ m ∈ members, m.1.isSome = true) : ∃ keys, members.mapM Prod.fst = some keys := by
  induction members with
  | nil => exact ⟨[], rfl⟩
  | cons m rest ih =>
    obtain ⟨key, first⟩ := Option.isSome_iff_exists.mp (texts m (by simp))
    obtain ⟨keys, others⟩ := ih fun m' member => texts m' (by simp [member])
    exact ⟨key :: keys, by simp [List.mapM_cons, first, others]⟩

/-- Where a name is given at most once, the values given to it are what is found under it. -/
theorem toList_find?_of_once {β : Type} {members : List (Option (List Char) × β)}
    {name : List Char} (once : (members.map Prod.fst).count (some name) ≤ 1) :
    (members.filter fun m => m.1 == some name).map Prod.snd =
      ((members.find? fun m => m.1 == some name).map Prod.snd).toList := by
  induction members with
  | nil => rfl
  | cons m rest ih =>
    rw [List.map_cons, List.count_cons] at once
    by_cases isName : m.1 == some name
    · rw [if_pos isName] at once
      have absent : rest.filter (fun m => m.1 == some name) = [] := by
        refine List.filter_eq_nil_iff.mpr fun m' member same => ?_
        have counted : 0 < (rest.map Prod.fst).count (some name) :=
          List.count_pos_iff.mpr (List.mem_map.mpr ⟨m', member, beq_iff_eq.mp same⟩)
        omega
      simp [isName, absent]
    · rw [if_neg isName] at once
      simpa [List.filter_cons, List.find?_cons, isName] using ih (by omega)

theorem count_some {key : List Char} {keys : List (List Char)} :
    (keys.map some).count (some key) = keys.count key :=
  List.count_map_of_injective _ _ (Option.some_injective _) _

/-- The fields found in an object are those that are given at most once each. -/
theorem fields?_object_iff {names : List String} {members : List (Option (List Char) × Value)}
    {values : List (Option Value)} : fields? names (.object members) = some values ↔
      (∀ m ∈ members, m.1.isSome = true) ∧ List.Forall₂ (fun name value =>
        (members.filter fun m => m.1 == some name.toList).map Prod.snd = value.toList) names
          values := by
  constructor
  · intro found
    simp only [fields?, Option.bind_eq_bind, Option.bind_eq_some_iff] at found
    obtain ⟨keys, read, found⟩ := found
    have texts := mapM_fst_eq_some read
    split at found
    · rename_i same
      cases found
      have unique := nodup_of_length_eraseDups same
      refine ⟨fun m member => ?_, ?_⟩
      · have isText : m.1 ∈ keys.map some := texts ▸ List.mem_map_of_mem member
        obtain ⟨key, -, isKey⟩ := List.mem_map.mp isText
        simp [← isKey]
      · refine List.forall₂_map_right_iff.mpr (List.forall₂_same.mpr fun name member => ?_)
        refine toList_find?_of_once ?_
        rw [texts, count_some, ← List.count_filter (p := fun k => names.contains (String.ofList k))
          (by simpa using member)]
        exact List.nodup_iff_count_le_one.mp unique _
    · cases found
  · rintro ⟨texts, once⟩
    obtain ⟨keys, read⟩ := exists_mapM_fst texts
    have isKeys := mapM_fst_eq_some read
    have single : List.Forall₂ (fun name value =>
        (members.map Prod.fst).count (some name.toList) ≤ 1 ∧
          ((members.find? fun m => m.1 == some name.toList).map Prod.snd) = value) names values := by
      refine once.imp fun name value given => ?_
      have few : (members.map Prod.fst).count (some name.toList) ≤ 1 := by
        have counted := congrArg List.length given
        rw [List.length_map, ← List.countP_eq_length_filter] at counted
        rw [List.count_eq_countP, List.countP_map]
        refine counted.trans_le ?_
        cases value <;> simp
      refine ⟨few, ?_⟩
      rw [toList_find?_of_once few] at given
      cases value <;> simpa using given
    have unique : (keys.filter fun k => names.contains (String.ofList k)).Nodup := by
      refine List.nodup_iff_count_le_one.mpr fun key => ?_
      by_cases asked : String.ofList key ∈ names
      · have counted := ((List.forall₂_and_left _ _).mp single).1 _ asked
        rw [isKeys, String.toList_ofList, count_some] at counted
        exact (List.filter_sublist.count_le _).trans counted
      · rw [List.count_eq_zero_of_not_mem (by simp [asked])]
        omega
    simp only [fields?, read, Option.bind_eq_bind, Option.bind_some]
    rw [if_pos (by rw [eraseDups_of_nodup unique])]
    exact congrArg some (List.forall₂_eq_eq_eq ▸ List.forall₂_map_left_iff.mpr
      (single.imp fun name value given => given.2))

/-- The fields found in a value are those of a record. -/
theorem fields?_eq_some_iff {names : List String} {v : Value} {values : List (Option Value)} :
    fields? names v = some values ↔
      names.length = values.length ∧ IsRecord v (names.zip values) := by
  cases v with
  | object members =>
    rw [fields?_object_iff, List.forall₂_iff_zip]
    constructor
    · rintro ⟨texts, same, once⟩
      exact ⟨same, .object texts fun f member => once member⟩
    · rintro ⟨same, record⟩
      cases record with
      | object texts once => exact ⟨texts, same, fun member => once _ member⟩
  | array elements =>
    have isZip : names.length = values.length →
        (names.zip values).map Prod.snd = values ∧ (names.zip values).length = names.length := by
      intro same
      exact ⟨List.map_snd_zip (by omega), by simp [same]⟩
    constructor
    · intro found
      simp only [fields?] at found
      split at found
      · rename_i fits
        cases found
        have same : names.length = (elements.map some ++
            List.replicate (names.length - elements.length) (none : Option Value)).length := by
          simp only [List.length_append, List.length_map, List.length_replicate]
          omega
        obtain ⟨given, length⟩ := isZip same
        exact ⟨same, .array (by omega) (by rw [given, length])⟩
      · cases found
    · rintro ⟨same, record⟩
      obtain ⟨given, length⟩ := isZip same
      cases record with
      | array fits inOrder =>
        rw [given, length] at inOrder
        rw [length] at fits
        simp only [fields?, if_pos fits, ← inOrder]
  | _ => simp only [fields?, reduceCtorEq, false_iff, not_and]; rintro - ⟨⟩

/-- Whether a value is a list of records; an absent list is empty. -/
inductive IsListOf {α : Type} (encodes : Value → α → Prop) : Option Value → List α → Prop where
  | absent : IsListOf encodes none []
  | listed {elements : List Value} {records : List α}
      (each : List.Forall₂ encodes elements records) :
      IsListOf encodes (some (.array elements)) records

def EncodesDescriptor (v : Value) (d : Descriptor) : Prop :=
  IsRecord v [("xml", some (textOf d.source.text)), ("class", some (textOf d.artifact.text)),
    ("package", some (textOf d.package)), ("digest", some (textOf d.fingerprint.hex))]

def EncodesMiss (v : Value) (m : Miss) : Prop :=
  IsRecord v [("file", some (textOf m.source.text)), ("digest", some (textOf m.fingerprint.hex))]

/-- Whether a value is an index document of the present version that holds the given index. -/
def Encodes (v : Value) (i : Index) : Prop :=
  ∃ entries misses,
    IsRecord v [("version", some (.number ['1'])), ("environment", some (textOf i.environment)),
      ("entries", entries), ("misses", misses)] ∧
    IsListOf EncodesDescriptor entries i.entries ∧ IsListOf EncodesMiss misses i.misses

theorem text?_eq_some_iff {v : Value} {text : String} : text? v = some text ↔ v = textOf text := by
  constructor
  · intro isText
    cases v with
    | string content =>
      cases content with
      | none => cases isText
      | some chars =>
        cases isText
        simp [textOf]
    | _ => cases isText
  · rintro rfl
    exact text?_textOf text

theorem isVersion_iff {v : Value} : isVersion v = true ↔ v = .number ['1'] := by
  have written : Nat.toDigits 10 version = ['1'] := by decide
  cases v <;> simp [isVersion, written]

theorem mapM_eq_some_iff {α β : Type} {f : α → Option β} {as : List α} {bs : List β} :
    as.mapM f = some bs ↔ List.Forall₂ (fun a b => f a = some b) as bs := by
  induction as generalizing bs with
  | nil => simp [eq_comm]
  | cons a rest ih =>
    simp only [List.mapM_cons, Option.bind_eq_bind, Option.bind_eq_some_iff, Option.pure_def,
      Option.some.injEq, List.forall₂_cons_left_iff]
    constructor
    · rintro ⟨b, first, others, read, rfl⟩
      exact ⟨b, others, first, ih.mp read, rfl⟩
    · rintro ⟨b, others, first, each, rfl⟩
      exact ⟨b, first, others, ih.mpr each, rfl⟩

theorem records?_eq_some_iff {α : Type} {read : Value → Option α} {encodes : Value → α → Prop}
    (reads : ∀ v r, read v = some r ↔ encodes v r) {field : Option Value} {records : List α} :
    records? read field = some records ↔ IsListOf encodes field records := by
  constructor
  · intro found
    cases field with
    | none =>
      cases found
      exact .absent
    | some v =>
      cases v with
      | array elements => exact .listed ((mapM_eq_some_iff.mp found).imp fun v r => (reads v r).mp)
      | _ => cases found
  · rintro (- | each)
    · rfl
    · exact mapM_eq_some_iff.mpr (each.imp fun v r => (reads v r).mpr)

theorem readDescriptor?_eq_some_iff (v : Value) (d : Descriptor) :
    readDescriptor? v = some d ↔ EncodesDescriptor v d := by
  simp only [readDescriptor?, Option.bind_eq_bind, Option.bind_eq_some_iff]
  constructor
  · rintro ⟨values, found, read⟩
    split at read
    · simp only [Option.bind_eq_some_iff, Option.pure_def, Option.some.injEq, text?_eq_some_iff]
        at read
      obtain ⟨source, rfl, artifact, rfl, package, rfl, digest, rfl, rfl⟩ := read
      exact (fields?_eq_some_iff.mp found).2
    · cases read
  · intro encodes
    exact ⟨[some (textOf d.source.text), some (textOf d.artifact.text), some (textOf d.package),
      some (textOf d.fingerprint.hex)], fields?_eq_some_iff.mpr ⟨rfl, encodes⟩,
      by simp [text?_textOf]⟩

theorem readMiss?_eq_some_iff (v : Value) (m : Miss) :
    readMiss? v = some m ↔ EncodesMiss v m := by
  simp only [readMiss?, Option.bind_eq_bind, Option.bind_eq_some_iff]
  constructor
  · rintro ⟨values, found, read⟩
    split at read
    · simp only [Option.bind_eq_some_iff, Option.pure_def, Option.some.injEq, text?_eq_some_iff]
        at read
      obtain ⟨file, rfl, digest, rfl, rfl⟩ := read
      exact (fields?_eq_some_iff.mp found).2
    · cases read
  · intro encodes
    exact ⟨[some (textOf m.source.text), some (textOf m.fingerprint.hex)],
      fields?_eq_some_iff.mpr ⟨rfl, encodes⟩, by simp [text?_textOf]⟩

/-- The reader takes exactly the documents of the present version, each for the index it holds. -/
theorem ofJson?_eq_some_iff {v : Value} {i : Index} : ofJson? v = some i ↔ Encodes v i := by
  have readEntries := @records?_eq_some_iff _ _ _ readDescriptor?_eq_some_iff
  have readMisses := @records?_eq_some_iff _ _ _ readMiss?_eq_some_iff
  simp only [ofJson?, Option.bind_eq_bind, Option.bind_eq_some_iff]
  constructor
  · rintro ⟨values, found, read⟩
    split at read
    · rename_i version environment entries misses
      split at read
      · rename_i isVersion
        simp only [Option.bind_eq_some_iff, Option.pure_def, Option.some.injEq, text?_eq_some_iff,
          readEntries, readMisses] at read
        obtain ⟨environment, rfl, entries, isEntries, misses, isMisses, rfl⟩ := read
        rw [isVersion_iff.mp isVersion] at found
        exact ⟨_, _, (fields?_eq_some_iff.mp found).2, isEntries, isMisses⟩
      · cases read
    · cases read
  · rintro ⟨entries, misses, record, isEntries, isMisses⟩
    refine ⟨[some (.number ['1']), some (textOf i.environment), entries, misses],
      fields?_eq_some_iff.mpr ⟨rfl, record⟩, ?_⟩
    simp only [isVersion_iff.mpr, if_true, text?_textOf, readEntries.mpr isEntries,
      readMisses.mpr isMisses, Option.bind_some]
    rfl

end SimWorkbench.Index
