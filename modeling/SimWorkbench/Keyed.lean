/-!
# Sorted lists with keys

A finite map is a list sorted by a key, with one member for each key. Putting a member in replaces
the one that has its key.
-/
namespace SimWorkbench.Keyed

variable {α κ : Type} [BEq κ] [LT κ] [DecidableLT κ]

/-- Puts `x` at its place, instead of a member with the same key. -/
def put (key : α → κ) (x : α) : List α → List α
  | [] => [x]
  | y :: rest =>
    if key x == key y then x :: rest
    else if key x < key y then x :: y :: rest
    else y :: put key x rest

/-- The member with the key `k`. -/
def get? (key : α → κ) (k : κ) (list : List α) : Option α := list.find? fun x => key x == k

/-- Whether a member has the key `k`. -/
def has (key : α → κ) (k : κ) (list : List α) : Bool := list.any fun x => key x == k

/-- The list without the member with the key `k`. -/
def drop (key : α → κ) (k : κ) (list : List α) : List α := list.filter fun x => !(key x == k)

/-- The members put in one after the other, so that the last one of a key stays. -/
def ofList (key : α → κ) (members : List α) : List α :=
  members.foldl (fun list x => put key x list) []

theorem mem_put {key : α → κ} {x y : α} {list : List α} (h : y ∈ put key x list) :
    y = x ∨ y ∈ list := by
  induction list with
  | nil => simpa [put] using h
  | cons z rest ih =>
    simp only [put] at h
    split at h
    · simp at h; rcases h with h | h
      · exact .inl h
      · exact .inr (by simp [h])
    · split at h
      · simpa using h
      · rcases List.mem_cons.mp h with h | h
        · exact .inr (by simp [h])
        · rcases ih h with h | h
          · exact .inl h
          · exact .inr (by simp [h])

end SimWorkbench.Keyed
