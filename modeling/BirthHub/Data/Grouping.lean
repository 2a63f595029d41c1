import BirthHub.Data.OrderedMap
import Mathlib.Data.List.Induction

/-!
# Rows by key

The loop that collects rows in a `Map` by a key: each key has the rows that have it, in their order,
and the keys stand in the order of their first rows.
-/

namespace Data

namespace OrderedMap

variable {κ ν : Type} [DecidableEq κ]

def addTo (key : ν → κ) (groups : OrderedMap κ (List ν)) (row : ν) : OrderedMap κ (List ν) :=
  groups.set (key row) ((groups.get (key row)).getD [] ++ [row])

def groupBy (key : ν → κ) (rows : List ν) : OrderedMap κ (List ν) := rows.foldl (addTo key) empty

variable {key : ν → κ} {rows group : List ν} {row : ν} {k : κ}

theorem get_groupBy : (groupBy key rows).get k =
    if rows.filter (fun row => key row = k) = [] then none
    else some (rows.filter fun row => key row = k) := by
  induction rows using List.reverseRecOn with
  | nil => rfl
  | append_singleton rows row ih =>
      have step : groupBy key (rows ++ [row]) = addTo key (groupBy key rows) row := by
        rw [groupBy, List.foldl_append]
        rfl
      rw [step, addTo, get_set, List.filter_append]
      by_cases same : key row = k
      · have own : [row].filter (fun row => key row = k) = [row] := by simp [same]
        rw [if_pos same.symm, same, ih, own]
        split
        · rename_i before
          rw [before]
          rfl
        · rw [if_neg (by simp)]
          rfl
      · have none' : [row].filter (fun row => key row = k) = [] := by simp [same]
        rw [if_neg (Ne.symm same), ih, none', List.append_nil]

theorem group_of_entry (inside : (k, group) ∈ (groupBy key rows).entries) :
    group = rows.filter (fun row => key row = k) ∧ group ≠ [] := by
  have found := get_eq_some.mpr inside
  rw [get_groupBy] at found
  split at found
  · cases found
  · rename_i some'
    cases found
    exact ⟨rfl, some'⟩

theorem entry_of_row (inside : row ∈ rows) :
    (key row, rows.filter fun other => key other = key row) ∈ (groupBy key rows).entries := by
  refine get_eq_some.mp ?_
  have there : row ∈ rows.filter fun other => key other = key row :=
    List.mem_filter.mpr ⟨inside, decide_eq_true rfl⟩
  rw [get_groupBy, if_neg (List.ne_nil_of_mem there)]

end OrderedMap

end Data
