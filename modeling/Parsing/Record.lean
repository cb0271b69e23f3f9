/-!
Records: values under distinct keys, in the order in which the keys were first stored. Storing under
a key that is there replaces the value and keeps the place.
-/

namespace Parsing

abbrev Record (κ β : Type) := List (κ × β)

namespace Record

variable {κ β : Type} [DecidableEq κ]

def put (key : κ) (value : β) : Record κ β → Record κ β
  | [] => [(key, value)]
  | (k, v) :: rest => if k = key then (k, value) :: rest else (k, v) :: put key value rest

def get? (key : κ) : Record κ β → Option β
  | [] => none
  | (k, v) :: rest => if k = key then some v else get? key rest

def keys (r : Record κ β) : List κ := r.map Prod.fst

theorem keys_put (key : κ) (value : β) (r : Record κ β) :
    (r.put key value).keys = if key ∈ r.keys then r.keys else r.keys ++ [key] := by
  induction r with
  | nil => rfl
  | cons entry rest ih =>
    obtain ⟨k, v⟩ := entry
    by_cases h : k = key
    · simp [put, keys, h]
    · simp only [put, keys, h, if_false, List.map_cons, List.mem_cons] at ih ⊢
      rw [ih]
      by_cases hm : key ∈ rest.map Prod.fst
      · simp [hm]
      · simp [hm, Ne.symm h]

end Record

end Parsing
