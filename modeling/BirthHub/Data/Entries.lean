import BirthHub.Data.Json

/-!
# Objects from entries

`Object.fromEntries` keeps the last value of each key, wherever the property order puts
the key.
-/

namespace Data.Json

variable {members : List (String × Json)} {entries : List (String × Json)}
  {key key' : String} {value : Json}

theorem lookup_eq_some (distinct : (members.map Prod.fst).Nodup) :
    members.lookup key = some value ↔ (key, value) ∈ members := by
  constructor
  · intro found
    obtain ⟨before, after, rfl, _⟩ := List.lookup_eq_some_iff.mp found
    exact List.mem_append_right _ List.mem_cons_self
  · intro inside
    obtain ⟨before, after, rfl⟩ := List.append_of_mem inside
    refine List.lookup_eq_some_iff.mpr ⟨before, after, rfl, fun e earlier => ?_⟩
    rw [List.map_append, List.nodup_append] at distinct
    have other := distinct.2.2 e.1 (List.mem_map_of_mem earlier) key (by simp)
    simpa using Ne.symm other

theorem setMember_keys : (setMember members key value).map Prod.fst =
    if key ∈ members.map Prod.fst then members.map Prod.fst
    else members.map Prod.fst ++ [key] := by
  have there : members.any (·.1 == key) = true ↔ key ∈ members.map Prod.fst := by
    simp
  unfold setMember
  by_cases inside : key ∈ members.map Prod.fst
  · rw [if_pos (there.mpr inside), if_pos inside, List.map_map]
    refine List.map_congr_left fun e _ => ?_
    by_cases hit : e.1 = key <;> simp [hit]
  · rw [if_neg fun hit => inside (there.mp hit), if_neg inside, List.map_append]
    rfl

theorem setMember_distinct (distinct : (members.map Prod.fst).Nodup) :
    ((setMember members key value).map Prod.fst).Nodup := by
  rw [setMember_keys]
  split
  · exact distinct
  · rename_i absent
    rw [List.nodup_append]
    refine ⟨distinct, List.nodup_singleton _, fun a inside b last => ?_⟩
    rw [List.mem_singleton.mp last]
    rintro rfl
    exact absent inside

theorem mem_setMember {v : Json} : (key', v) ∈ setMember members key value ↔
    if key' = key then v = value else (key', v) ∈ members := by
  unfold setMember
  split
  · rename_i there
    obtain ⟨e, inside, hit⟩ := List.any_eq_true.mp there
    simp only [List.mem_map]
    split
    · rename_i same
      constructor
      · rintro ⟨e', _, equal⟩
        split at equal
        · exact (Prod.mk.inj equal).2.symm
        · rename_i other
          rw [equal, same] at other
          exact (other (by simp)).elim
      · rintro rfl
        exact ⟨e, inside, by rw [if_pos hit, same]⟩
    · rename_i other
      constructor
      · rintro ⟨e', inside', equal⟩
        split at equal
        · exact (other (Prod.mk.inj equal).1.symm).elim
        · exact equal ▸ inside'
      · exact fun inside' => ⟨_, inside', if_neg (by simpa using other)⟩
  · rename_i absent
    rw [List.mem_append, List.mem_singleton]
    split
    · rename_i same
      constructor
      · rintro (inside | equal)
        · exact (absent (List.any_eq_true.mpr ⟨_, inside, by simpa using same⟩)).elim
        · exact (Prod.mk.inj equal).2
      · rintro rfl
        exact .inr (by rw [same])
    · rename_i other
      constructor
      · rintro (inside | equal)
        · exact inside
        · exact (other (Prod.mk.inj equal).1).elim
      · exact .inl

theorem lookup_setMember (distinct : (members.map Prod.fst).Nodup) :
    (setMember members key value).lookup key' =
      if key' = key then some value else members.lookup key' := by
  refine Option.ext fun v => ?_
  rw [lookup_eq_some (setMember_distinct distinct), mem_setMember]
  split
  · rw [Option.some.injEq, eq_comm]
  · rw [lookup_eq_some distinct]

theorem propertyOrder_perm : (propertyOrder members).Perm members := by
  have parts := List.filter_append_perm (fun m : String × Json => (arrayIndex m.1).isSome) members
  refine List.Perm.trans ?_ parts
  unfold propertyOrder
  refine List.Perm.append (List.perm_insertionSort _ _) ?_
  refine List.Perm.of_eq (List.filter_congr fun m _ => ?_)
  cases arrayIndex m.1 <;> rfl

theorem member_fromEntries {before after : List (String × Json)}
    (last : ∀ e ∈ after, e.1 ≠ key) :
    (fromEntries (before ++ (key, value) :: after)).member key = some value := by
  let build (members entries : List (String × Json)) : List (String × Json) :=
    entries.foldl (fun ms e => setMember ms e.1 e.2) members
  have distinct : ∀ (entries members : List (String × Json)), (members.map Prod.fst).Nodup →
      ((build members entries).map Prod.fst).Nodup := by
    intro entries
    induction entries with
    | nil => exact fun _ first => first
    | cons e entries ih => exact fun _ first => ih _ (setMember_distinct first)
  have kept : ∀ (entries members : List (String × Json)), (members.map Prod.fst).Nodup →
      (∀ e ∈ entries, e.1 ≠ key) →
      (build members entries).lookup key = members.lookup key := by
    intro entries
    induction entries with
    | nil => exact fun _ _ _ => rfl
    | cons e entries ih =>
        intro members first others
        have next := ih (setMember members e.1 e.2) (setMember_distinct first) fun e' there =>
          others e' (List.mem_cons_of_mem _ there)
        rw [show build members (e :: entries) = build (setMember members e.1 e.2) entries from rfl,
          next, lookup_setMember first, if_neg (Ne.symm (others e List.mem_cons_self))]
  have built : build [] (before ++ (key, value) :: after) =
      build (setMember (build [] before) key value) after := by
    simp only [build, List.foldl_append, List.foldl_cons]
  have found : (build [] (before ++ (key, value) :: after)).lookup key = some value := by
    have first := distinct before [] List.nodup_nil
    rw [built, kept after _ (setMember_distinct first) last, lookup_setMember first, if_pos rfl]
  have nodup := distinct (before ++ (key, value) :: after) [] List.nodup_nil
  have ordered := (List.Perm.map Prod.fst propertyOrder_perm).nodup_iff.mpr nodup
  show (propertyOrder (build [] (before ++ (key, value) :: after))).lookup key = some value
  rw [lookup_eq_some ordered, propertyOrder_perm.mem_iff, ← lookup_eq_some nodup]
  exact found

end Data.Json
