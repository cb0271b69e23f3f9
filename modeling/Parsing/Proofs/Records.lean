import Mathlib.Data.List.Nodup
import Parsing.Record

/-!
What storing does to a record. A key that is new goes to the end, no key ever stands twice, and the
values under other keys stay. Storing pairs one after another leaves the last value of each key, and
the new keys in the order in which they first came.
-/

namespace Parsing

namespace Record

variable {κ β : Type}

theorem keys_concat (r : Record κ β) (key : κ) (value : β) :
    keys (r ++ [(key, value)]) = r.keys ++ [key] := List.map_append

variable [DecidableEq κ]

/-- A key that is not there yet is stored last. -/
theorem put_eq_concat (r : Record κ β) (key : κ) (value : β)
    (h : key ∉ r.keys) : r.put key value = r ++ [(key, value)] := by
  induction r with
  | nil => rfl
  | cons entry rest ih =>
    obtain ⟨k, v⟩ := entry
    have hne : k ≠ key := fun heq => h (heq ▸ List.mem_cons_self)
    have hrest : key ∉ keys rest := fun hmem => h (List.mem_cons_of_mem k hmem)
    rw [put, if_neg hne, ih hrest, List.cons_append]

theorem nodup_keys_put (r : Record κ β) (key : κ) (value : β)
    (h : r.keys.Nodup) : (r.put key value).keys.Nodup := by
  rw [keys_put]
  split
  · exact h
  · rename_i hmem
    rw [← List.concat_eq_append]
    exact (List.nodup_concat r.keys key).mpr ⟨hmem, h⟩

/-- New keys and their values, stored side by side. -/
theorem put_zip (keys : List κ) (key : κ) (values : List β) (value : β)
    (h : key ∉ keys) (hlen : values.length = keys.length) :
    put key value (keys.zip values) = (keys ++ [key]).zip (values ++ [value]) := by
  have hmem : key ∉ Record.keys (keys.zip values) := by
    intro hkey
    obtain ⟨entry, hentry, rfl⟩ := List.mem_map.mp hkey
    exact h (List.of_mem_zip hentry).1
  rw [put_eq_concat _ key value hmem, List.zip_append hlen.symm]
  rfl

theorem get?_put (r : Record κ β) (key : κ) (value : β) (key' : κ) :
    get? key' (r.put key value) = if key = key' then some value else r.get? key' := by
  induction r with
  | nil => rfl
  | cons entry rest ih =>
    obtain ⟨k, v⟩ := entry
    by_cases hk : k = key
    · subst hk
      by_cases hkey : k = key' <;> simp [put, get?, hkey]
    · by_cases hk' : k = key'
      · subst hk'
        simp [put, get?, hk, Ne.symm hk]
      · simp [put, get?, hk, hk', ih]

theorem get?_append (key : κ) (r r' : Record κ β) :
    get? key (r ++ r') = (r.get? key).or (r'.get? key) := by
  induction r with
  | nil => rfl
  | cons entry rest ih =>
    obtain ⟨k, v⟩ := entry
    by_cases hk : k = key <;> simp [get?, hk, ih]

/-- Stores each value under its key, one after another. -/
def putAll (r : Record κ β) (pairs : List (κ × β)) : Record κ β :=
  pairs.foldl (fun r pair => r.put pair.1 pair.2) r

theorem putAll_cons (r : Record κ β) (key : κ) (value : β) (pairs : List (κ × β)) :
    r.putAll ((key, value) :: pairs) = (r.put key value).putAll pairs := rfl

/-- The keys there are keep their places, and the others follow as they first come. -/
theorem keys_putAll (r : Record κ β) (pairs : List (κ × β)) :
    (r.putAll pairs).keys = r.keys ++ ((pairs.map Prod.fst).removeAll r.keys).eraseDups := by
  induction pairs generalizing r with
  | nil => simp [putAll]
  | cons pair rest ih =>
    obtain ⟨key, value⟩ := pair
    rw [putAll_cons, ih, keys_put]
    by_cases h : key ∈ r.keys
    · simp [h, List.cons_removeAll]
    · have hrest : (rest.map Prod.fst).removeAll (r.keys ++ [key]) =
          ((rest.map Prod.fst).removeAll r.keys).filter fun k => !k == key := by
        simp [List.removeAll, Bool.and_comm, Bool.beq_eq_decide_eq]
      rw [if_neg h, hrest]
      simp [h, List.cons_removeAll, List.eraseDups_cons]

/-- Under each key stands the last of its values, and the old one if it has none. -/
theorem get?_putAll (r : Record κ β) (pairs : List (κ × β)) (key : κ) :
    (r.putAll pairs).get? key = (get? key pairs.reverse).or (r.get? key) := by
  induction pairs generalizing r with
  | nil => rfl
  | cons pair rest ih =>
    obtain ⟨key', value⟩ := pair
    rw [putAll_cons, ih, get?_put, List.reverse_cons, get?_append, Option.or_assoc]
    by_cases h : key' = key <;> simp [get?, h]

end Record

end Parsing
