import Mathlib.Data.Finmap
import Mathlib.Data.Finset.Sort
import Mathlib.Tactic
import SimWorkbench.Keyed

/-!
# Sorted lists as finite maps

A list whose keys increase strictly is a finite map: a member is found under its key, putting one in
changes what is found under its key alone, and putting all members in one after the other gives the
list back. With paths for keys it is the listing of a map that has no order.
-/
namespace SimWorkbench.Keyed

variable {α κ : Type}

/-- Whether the keys increase strictly. -/
def Ordered [LT κ] (key : α → κ) (list : List α) : Prop :=
  list.Pairwise fun x y => key x < key y

/-- A member is found under its key where no two members share a key. -/
theorem find?_of_mem [BEq κ] [LawfulBEq κ] (key : α → κ) {list : List α} {x : α}
    (unique : (list.map key).Nodup) (member : x ∈ list) :
    list.find? (fun y => key y == key x) = some x := by
  induction list with
  | nil => cases member
  | cons y rest ih =>
    obtain ⟨fresh, others⟩ := List.nodup_cons.mp unique
    rcases List.mem_cons.mp member with rfl | later
    · simp
    · have different : key y ≠ key x := by
        intro equal
        exact fresh (equal ▸ List.mem_map_of_mem later)
      simp [different, ih others later]

/-- Putting members in one by one brings no others. -/
theorem mem_ofList [BEq κ] [LT κ] [DecidableLT κ] {key : α → κ} {x : α} {members : List α}
    (member : x ∈ ofList key members) : x ∈ members := by
  have grown : ∀ (rest list : List α), x ∈ rest.foldl (fun list y => put key y list) list →
      x ∈ rest ∨ x ∈ list := by
    intro rest
    induction rest with
    | nil => exact fun list => .inr
    | cons y rest ih =>
      intro list member
      rcases ih _ member with later | here
      · exact .inl (List.mem_cons_of_mem _ later)
      · rcases mem_put here with rfl | before
        · exact .inl (by simp)
        · exact .inr before
  simpa using grown members [] member

section

variable [BEq κ]

theorem drop_cons (key : α → κ) (k : κ) (x : α) (rest : List α) :
    drop key k (x :: rest) = if key x == k then drop key k rest else x :: drop key k rest := by
  by_cases h : key x == k <;> simp [drop, h]

theorem mem_drop [LawfulBEq κ] {key : α → κ} {k : κ} {x : α} {list : List α} :
    x ∈ drop key k list ↔ x ∈ list ∧ key x ≠ k := by
  simp [drop]

theorem get?_cons [LawfulBEq κ] [DecidableEq κ] (key : α → κ) (k : κ) (x : α) (rest : List α) :
    get? key k (x :: rest) = if key x = k then some x else get? key k rest := by
  by_cases h : key x = k <;> simp [get?, h]

theorem get?_mem [LawfulBEq κ] {key : α → κ} {k : κ} {x : α} {list : List α}
    (found : get? key k list = some x) : x ∈ list ∧ key x = k := by
  refine ⟨List.mem_of_find?_eq_some found, ?_⟩
  simpa using List.find?_some found

theorem get?_drop [LawfulBEq κ] [DecidableEq κ] (key : α → κ) (k j : κ) (list : List α) :
    get? key j (drop key k list) = if j = k then none else get? key j list := by
  induction list with
  | nil => simp [drop, get?]
  | cons x rest ih =>
    rw [drop_cons]
    by_cases gone : key x = k
    · by_cases same : j = k
      · simpa [gone, same] using ih
      · have other : key x ≠ j := fun equal => same (equal.symm.trans gone)
        simpa [gone, same, get?_cons, Ne.symm same] using ih
    · by_cases here : key x = j
      · have other : j ≠ k := fun equal => gone (here.trans equal)
        simp [get?_cons, here, other]
      · simpa [gone, get?_cons, here] using ih

theorem get?_put [LawfulBEq κ] [DecidableEq κ] [LT κ] [DecidableLT κ] (key : α → κ) (x : α) (j : κ)
    (list : List α) :
    get? key j (put key x list) = if key x = j then some x else get? key j list := by
  induction list with
  | nil => simp [put, get?]
  | cons y rest ih =>
    simp only [put, beq_iff_eq]
    by_cases same : key x = key y
    · rw [if_pos same, get?_cons, get?_cons, ← same]
      split <;> rfl
    · rw [if_neg same]
      by_cases before : key x < key y
      · rw [if_pos before, get?_cons]
      · rw [if_neg before, get?_cons, get?_cons, ih]
        by_cases here : key y = j
        · have other : key x ≠ j := fun equal => same (equal.trans here.symm)
          rw [if_pos here, if_pos here, if_neg other]
        · rw [if_neg here, if_neg here]

/-- Of members that share a key the last one is found. -/
theorem get?_ofList [LawfulBEq κ] [DecidableEq κ] [LT κ] [DecidableLT κ] (key : α → κ) (k : κ)
    (members : List α) :
    get? key k (ofList key members) = members.reverse.find? fun x => key x == k := by
  induction members using List.reverseRecOn with
  | nil => rfl
  | append_singleton members x ih =>
    have last : ofList key (members ++ [x]) = put key x (ofList key members) := by
      simp [ofList, List.foldl_append]
    rw [last, get?_put, ih, List.reverse_append, List.reverse_singleton, List.singleton_append]
    by_cases isKey : key x = k
    · simp [isKey]
    · rw [if_neg isKey, List.find?_cons_of_neg (by simpa using isKey)]

end

theorem Ordered.drop [BEq κ] [LT κ] {key : α → κ} {list : List α} (h : Ordered key list) (k : κ) :
    Ordered key (drop key k list) :=
  h.sublist List.filter_sublist

theorem Ordered.nodup [LT κ] [Std.Irrefl (α := κ) (· < ·)] {key : α → κ} {list : List α}
    (h : Ordered key list) : (list.map key).Nodup := by
  rw [List.nodup_iff_pairwise_ne, List.pairwise_map]
  refine h.imp fun {x y} less equal => ?_
  rw [equal] at less
  exact Std.Irrefl.irrefl _ less

theorem Ordered.get?_of_mem [BEq κ] [LawfulBEq κ] [LT κ] [Std.Irrefl (α := κ) (· < ·)]
    {key : α → κ} {list : List α} (h : Ordered key list) {x : α} (member : x ∈ list) :
    get? key (key x) list = some x :=
  find?_of_mem key h.nodup member

section

variable [BEq κ] [LawfulBEq κ] [LT κ] [DecidableLT κ]
  [Trans (α := κ) (β := κ) (γ := κ) (· < ·) (· < ·) (· < ·)]

theorem Ordered.put [Std.Trichotomous (α := κ) (· < ·)] {key : α → κ} {list : List α}
    (h : Ordered key list) (x : α) : Ordered key (put key x list) := by
  induction list with
  | nil => simp [Keyed.put, Ordered]
  | cons y rest ih =>
    obtain ⟨first, others⟩ := List.pairwise_cons.mp h
    simp only [Keyed.put]
    by_cases same : key x = key y
    · simp only [same, beq_self_eq_true, if_true]
      refine List.pairwise_cons.mpr ⟨fun z member => ?_, others⟩
      rw [same]
      exact first z member
    · by_cases before : key x < key y
      · simp only [beq_iff_eq, same, before, if_false, if_true]
        refine List.pairwise_cons.mpr ⟨fun z member => ?_, h⟩
        rcases List.mem_cons.mp member with rfl | later
        · exact before
        · exact Trans.trans before (first z later)
      · have after : key y < key x := by
          by_contra notAfter
          exact same (Std.Trichotomous.trichotomous _ _ before notAfter)
        simp only [beq_iff_eq, same, before, if_false]
        refine List.pairwise_cons.mpr ⟨fun z member => ?_, ih others⟩
        rcases mem_put member with rfl | later
        · exact after
        · exact first z later

/-- A member whose key is beyond all others goes to the end. -/
theorem put_last [Std.Irrefl (α := κ) (· < ·)] {key : α → κ} {x : α} {list : List α}
    (h : ∀ y ∈ list, key y < key x) : put key x list = list ++ [x] := by
  induction list with
  | nil => rfl
  | cons y rest ih =>
    have less := h y (by simp)
    have different : key x ≠ key y := fun equal => Std.Irrefl.irrefl _ (equal ▸ less)
    have notBefore : ¬ key x < key y := fun before => Std.Irrefl.irrefl _ (Trans.trans before less)
    simp [put, different, notBefore, ih fun z member => h z (by simp [member])]

/-- Putting members in one by one makes an ordered list. -/
theorem ordered_ofList [Std.Trichotomous (α := κ) (· < ·)] (key : α → κ) (members : List α) :
    Ordered key (ofList key members) := by
  have kept : ∀ (rest list : List α), Ordered key list →
      Ordered key (rest.foldl (fun list x => Keyed.put key x list) list) := by
    intro rest
    induction rest with
    | nil => exact fun list h => h
    | cons x rest ih => exact fun list h => ih _ (h.put x)
  exact kept members [] .nil

/-- Putting the members of an ordered list in one by one gives the list. -/
theorem ofList_ordered [Std.Irrefl (α := κ) (· < ·)] {key : α → κ} {list : List α}
    (h : Ordered key list) : ofList key list = list := by
  have grows : ∀ (rest done : List α), Ordered key (done ++ rest) →
      rest.foldl (fun list x => put key x list) done = done ++ rest := by
    intro rest
    induction rest with
    | nil => simp
    | cons x rest ih =>
      intro done ordered
      have beyond : ∀ y ∈ done, key y < key x := by
        intro y member
        exact (List.pairwise_append.mp ordered).2.2 y member x (by simp)
      rw [List.foldl_cons, put_last beyond, ih _ (by simpa using ordered)]
      simp
  exact grows list [] h

end

/-- The keys by which paths are told apart. -/
abbrev PathKey := List (List Nat)

/-- A finite map from paths, which knows no order. -/
abbrev PathMap (α : Type) := Finmap fun _ : PathKey => α

/-- What a map holds, in the order of the keys. -/
def listing (m : PathMap α) : List α := (m.keys.sort (· ≤ ·)).filterMap fun k => m.lookup k

/-- Whether a list is a finite map, member by member and in order. -/
structure Represents (key : α → PathKey) (list : List α) (m : PathMap α) : Prop where
  ordered : Ordered key list
  lookup : ∀ k, get? key k list = m.lookup k

namespace Represents

variable {key : α → PathKey} {list : List α} {m : PathMap α}

theorem nil (key : α → PathKey) : Represents key [] ∅ := ⟨.nil, fun k => by simp [get?]⟩

theorem put (h : Represents key list m) (x : α) :
    Represents key (put key x list) (m.insert (key x) x) := by
  refine ⟨h.ordered.put x, fun k => ?_⟩
  rw [get?_put]
  by_cases same : key x = k
  · rw [if_pos same, ← same, Finmap.lookup_insert]
  · rw [if_neg same, h.lookup, Finmap.lookup_insert_of_ne _ (Ne.symm same)]

theorem drop (h : Represents key list m) (k : PathKey) :
    Represents key (drop key k list) (m.erase k) := by
  refine ⟨h.ordered.drop k, fun j => ?_⟩
  rw [get?_drop]
  by_cases same : j = k
  · rw [if_pos same, same, Finmap.lookup_erase]
  · rw [if_neg same, h.lookup, Finmap.lookup_erase_ne same]

/-- What is not there can be dropped from the map alone. -/
theorem erase_absent (h : Represents key list m) {k : PathKey} (absent : get? key k list = none) :
    Represents key list (m.erase k) := by
  refine ⟨h.ordered, fun j => ?_⟩
  by_cases same : j = k
  · rw [same, Finmap.lookup_erase, absent]
  · rw [Finmap.lookup_erase_ne same, h.lookup]

theorem mem_iff (h : Represents key list m) (k : PathKey) : k ∈ m ↔ k ∈ list.map key := by
  rw [Finmap.mem_iff, ← h.lookup, List.mem_map]
  constructor
  · rintro ⟨x, found⟩
    exact ⟨x, get?_mem found⟩
  · rintro ⟨x, member, rfl⟩
    exact ⟨x, h.ordered.get?_of_mem member⟩

theorem sort_keys (h : Represents key list m) : m.keys.sort (· ≤ ·) = list.map key := by
  have sorted : (list.map key).Pairwise (· < ·) := List.pairwise_map.mpr h.ordered
  refine List.Pairwise.eq_of_mem_iff (Finset.sortedLT_sort m.keys).pairwise sorted fun k => ?_
  rw [Finset.mem_sort, Finmap.mem_keys, h.mem_iff]

/-- The list is the listing of the map. -/
theorem listing_eq (h : Represents key list m) : listing m = list := by
  rw [listing, h.sort_keys, List.filterMap_map]
  have found : ∀ x ∈ list, ((fun k => m.lookup k) ∘ key) x = some x := fun x member => by
    rw [Function.comp_apply, ← h.lookup, h.ordered.get?_of_mem member]
  rw [List.filterMap_congr found, List.filterMap_some]

theorem card_keys (h : Represents key list m) : m.keys.card = list.length := by
  rw [← Finset.length_sort (· ≤ ·), h.sort_keys, List.length_map]

end Represents

end SimWorkbench.Keyed
