/-! Entries are pairs of a key and a value in ascending order of the keys, no key twice. -/

namespace HashTabs.Query.Entries

variable {κ α : Type}

/-- The value under a key. -/
def lookup [DecidableEq κ] (k : κ) : List (κ × α) → Option α
  | [] => none
  | (other, v) :: es => if k = other then some v else lookup k es

/-- Puts a value under a key, in place of the one that is there or where the key belongs. -/
def put [DecidableEq κ] [LT κ] [DecidableLT κ] (k : κ) (v : α) : List (κ × α) → List (κ × α)
  | [] => [(k, v)]
  | (other, w) :: es =>
    if k = other then (k, v) :: es
    else if k < other then (k, v) :: (other, w) :: es
    else (other, w) :: put k v es

section
variable [DecidableEq κ] [LT κ] [DecidableLT κ]

@[simp] theorem lookup_put_self (k : κ) (v : α) (es : List (κ × α)) :
    lookup k (put k v es) = some v := by
  induction es with
  | nil => simp [put, lookup]
  | cons e es ih =>
    obtain ⟨other, w⟩ := e
    by_cases h : k = other
    · simp [put, lookup, h]
    · by_cases hl : k < other <;> simp [put, lookup, h, hl, ih]

theorem lookup_put_of_ne {k l : κ} (h : l ≠ k) (v : α) (es : List (κ × α)) :
    lookup l (put k v es) = lookup l es := by
  induction es with
  | nil => simp [put, lookup, h]
  | cons e es ih =>
    obtain ⟨other, w⟩ := e
    by_cases hk : k = other
    · subst hk
      simp [put, lookup, h]
    · by_cases hl : k < other <;> simp [put, lookup, h, hk, hl, ih]

end

end HashTabs.Query.Entries
