import Mathlib.Data.List.Basic

/-!
# Maps that keep the first value

`std::map::insert` does nothing for a key that is there already.  A map filled
in a loop therefore holds, for each key, the value of the first insertion; the
order of the keys is left to the reader of the map.
-/

namespace KeyedMap

variable {K V : Type*} [DecidableEq K]

def keys (entries : List (K × V)) : List K := entries.map Prod.fst

def insert (entries : List (K × V)) (key : K) (value : V) : List (K × V) :=
  if key ∈ keys entries then entries else entries ++ [(key, value)]

def find (entries : List (K × V)) (key : K) : Option V :=
  (entries.find? fun entry => entry.1 = key).map Prod.snd

@[simp]
theorem find_nil (key : K) : find ([] : List (K × V)) key = none := rfl

theorem find_eq_none_iff {entries : List (K × V)} {key : K} :
    find entries key = none ↔ key ∉ keys entries := by
  rw [find, Option.map_eq_none_iff, List.find?_eq_none, keys, List.mem_map]
  constructor
  · rintro hnone ⟨entry, hentry, hkey⟩
    exact hnone entry hentry (by simpa using hkey)
  · intro hnone entry hentry hkey
    exact hnone ⟨entry, hentry, by simpa using hkey⟩

theorem mem_keys_insert {entries : List (K × V)} {key other : K} {value : V} :
    other ∈ keys (insert entries key value) ↔ other ∈ keys entries ∨ other = key := by
  rw [insert]
  split
  · next hmem =>
      constructor
      · exact Or.inl
      · rintro (hother | rfl)
        · exact hother
        · exact hmem
  · rw [keys, List.map_append, List.mem_append, List.map_singleton, List.mem_singleton, keys]

theorem find_insert (entries : List (K × V)) (key other : K) (value : V) :
    find (insert entries key value) other =
      if other = key then (find entries key).or (some value)
      else find entries other := by
  by_cases hmem : key ∈ keys entries
  · rw [insert, if_pos hmem]
    split
    · next heq =>
        cases hfind : find entries key with
        | none => exact absurd hmem (find_eq_none_iff.mp hfind)
        | some found => rw [heq, hfind, Option.some_or]
    · rfl
  · rw [insert, if_neg hmem, find, List.find?_append, List.find?_singleton, Option.map_or]
    by_cases heq : other = key
    · simp [heq, find]
    · simp [heq, Ne.symm heq, find]

theorem mem_keys_foldl {A : Type*} {key : A → K} {value : A → V}
    {items : List A} {entries : List (K × V)} {other : K} :
    other ∈ keys (items.foldl (fun entries item =>
        insert entries (key item) (value item)) entries) ↔
      other ∈ keys entries ∨ other ∈ items.map key := by
  induction items generalizing entries with
  | nil => simp
  | cons item items ih =>
      rw [List.foldl_cons, ih, mem_keys_insert, List.map_cons, List.mem_cons, or_assoc]

end KeyedMap
