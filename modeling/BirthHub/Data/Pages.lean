import Mathlib

/-!
# Pages of a list after a cursor

A request returns up to a number of rows after the row that its cursor names, in an order that is
asked for, and the cursor of the next request when there are more. Rows that tie in that order may
come in another order in each request. All rows are covered when no two rows tie, and only then.
-/

namespace Data.Pages

variable {ρ σ ε : Type} {id : ρ → String}

/-! ## Pages -/

structure Page (ρ : Type) where
  items : List ρ
  nextCursor : Option String

def Page.map (item : ρ → σ) (page : Page ρ) : Page σ := ⟨page.items.map item, page.nextCursor⟩

/-- The rows from the one that the cursor names. -/
def fromCursor (id : ρ → String) : Option String → List ρ → List ρ
  | none, rows => rows
  | some cursor, rows => rows.dropWhile fun row => id row ≠ cursor

/-- The page of rows that were fetched to one more than its size. -/
def Page.ofRows (id : ρ → String) (take : Nat) (rows : List ρ) : Page ρ where
  items := rows.take take
  nextCursor := if take < rows.length ∧ take ≠ 0 then rows[take - 1]?.map id else none

/-- Requests from a cursor on, each with the cursor of the page before; nothing when there are
more pages than are asked for. -/
def follow (request : Nat → Option String → Except ε (Page ρ)) :
    Nat → Nat → Option String → Except ε (Option (List ρ))
  | 0, _, _ => .ok none
  | fuel + 1, k, cursor =>
      match request k cursor with
      | .error e => .error e
      | .ok page =>
          match page.nextCursor with
          | none => .ok (some page.items)
          | some next => (follow request fuel (k + 1) (some next)).map
              fun rest => rest.map (page.items ++ ·)

/-- After a page with a cursor the other rows are those from that cursor on. -/
theorem follow_next {request : Nat → Option String → Except ε (Page ρ)} {fuel k : Nat}
    {cursor : Option String} {items all : List ρ} {next : String}
    (answer : request k cursor = .ok ⟨items, some next⟩)
    (ends : follow request (fuel + 1) k cursor = .ok (some all)) :
    ∃ others, follow request fuel (k + 1) (some next) = .ok (some others) ∧
      all = items ++ others := by
  simp only [follow, answer] at ends
  cases onwards : follow request fuel (k + 1) (some next) with
  | error e =>
      rw [onwards] at ends
      cases ends
  | ok found =>
      cases found with
      | none =>
          rw [onwards] at ends
          cases ends
      | some others =>
          rw [onwards] at ends
          cases ends
          exact ⟨others, rfl, rfl⟩

/-- Following the cursors ends, and every row was returned once. -/
def Covers (request : Nat → Option String → Except ε (Page ρ)) (rows : List ρ) : Prop :=
  ∃ fuel all, follow request fuel 0 none = .ok (some all) ∧ all.Perm rows

/-- The rows in an order that is asked for. -/
structure Arranged (le : ρ → ρ → Prop) (rows arranged : List ρ) : Prop where
  perm : arranged.Perm rows
  sorted : arranged.Pairwise le

/-- The page after a cursor. -/
def pageAfter (id : ρ → String) (take : Nat) (rows : List ρ) (cursor : Option String) : Page ρ :=
  .ofRows id take (((fromCursor id cursor rows).drop (if cursor.isSome then 1 else 0)).take (take + 1))

/-! ## One order -/

section Order

variable {done rest rows : List ρ} {take : Nat}

theorem fromCursor_append {row : ρ} (distinct : ((done ++ row :: rest).map id).Nodup) :
    fromCursor id (some (id row)) (done ++ row :: rest) = row :: rest := by
  have others : ∀ r ∈ done, decide (id r ≠ id row) = true := by
    intro r inside
    rw [List.map_append, List.nodup_append] at distinct
    exact decide_eq_true
      (distinct.2.2 _ (List.mem_map_of_mem inside) _ (by simp))
  rw [fromCursor, List.dropWhile_append_of_pos others]
  exact List.dropWhile_cons_of_neg (by simp)

theorem pageAfter_append (distinct : ((done ++ rest).map id).Nodup) :
    pageAfter id take (done ++ rest) (done.getLast?.map id) =
      .ofRows id take (rest.take (take + 1)) := by
  rcases List.eq_nil_or_concat done with rfl | ⟨before, row, rfl⟩
  · rfl
  · rw [List.concat_eq_append, List.append_assoc, List.singleton_append] at distinct ⊢
    rw [List.getLast?_concat, pageAfter, Option.map_some, fromCursor_append distinct]
    rfl

/-- A page that is not the last one ends with the row its cursor names. -/
theorem nextCursor_ofRows (id : ρ → String) (size : 1 ≤ take) (more : take < rows.length) :
    (Page.ofRows id take (rows.take (take + 1))).nextCursor = (rows.take take).getLast?.map id := by
  have long : take < (rows.take (take + 1)).length := by
    rw [List.length_take]
    omega
  rw [Page.ofRows, if_pos ⟨long, by omega⟩, List.getLast?_eq_getElem?, List.length_take,
    List.getElem?_take_of_lt (by omega), List.getElem?_take_of_lt (by omega),
    min_eq_left more.le]

theorem items_ofRows (id : ρ → String) (take : Nat) (rows : List ρ) : (Page.ofRows id take (rows.take (take + 1))).items = rows.take take := by
  rw [Page.ofRows, List.take_take, min_eq_left (Nat.le_succ take)]

/-- Requests that all see the rows in one order return them all, in that order. -/
theorem follow_pageAfter {request : Nat → Option String → Except ε (Page σ)} {item : ρ → σ}
    (size : 1 ≤ take) (named : ∀ row ∈ rows, id row ≠ "") (distinct : (rows.map id).Nodup)
    (answers : ∀ k cursor, cursor ≠ some "" →
      request k cursor = .ok ((pageAfter id take rows cursor).map item))
    {fuel k : Nat} (split : rows = done ++ rest) (enough : rest.length < fuel) :
    follow request fuel k (done.getLast?.map id) = .ok (some (rest.map item)) := by
  induction fuel generalizing done rest k with
  | zero => cases enough
  | succ fuel ih =>
      have given : done.getLast?.map id ≠ some "" := by
        intro blank
        obtain ⟨row, last, empty⟩ := Option.map_eq_some_iff.mp blank
        exact named row (split ▸ List.mem_append_left _ (List.mem_of_getLast? last)) empty
      rw [follow, answers k _ given, split, pageAfter_append (split ▸ distinct)]
      by_cases more : take < rest.length
      · have next := nextCursor_ofRows id size more
        obtain ⟨row, last⟩ : ∃ row, (rest.take take).getLast? = some row := by
          cases found : (rest.take take).getLast? with
          | some row => exact ⟨row, rfl⟩
          | none =>
              rw [List.getLast?_eq_none_iff, List.take_eq_nil_iff] at found
              rcases found with zero | rfl
              · omega
              · simp at more
        have shown := items_ofRows id take rest
        have onwards : follow request fuel (k + 1) ((done ++ rest.take take).getLast?.map id) =
            .ok (some ((rest.drop take).map item)) := by
          apply ih
          · rw [split, List.append_assoc, List.take_append_drop]
          · rw [List.length_drop]
            omega
        rw [List.getLast?_append, last, Option.some_or, Option.map_some] at onwards
        rw [last, Option.map_some] at next
        simp only [Page.map, next, shown, onwards, Except.map, Option.map_some]
        rw [← List.map_append, List.take_append_drop]
      · have whole : rest.take (take + 1) = rest := List.take_of_length_le (by omega)
        have shown : rest.take take = rest := List.take_of_length_le (by omega)
        have ends : ¬(take < rest.length ∧ take ≠ 0) := fun both => more both.1
        simp only [Page.map, Page.ofRows, whole, if_neg ends, shown]

end Order

/-! ## Orders with ties -/

/-- An order in which any two rows can be compared. -/
structure IsOrder (le : ρ → ρ → Prop) : Prop where
  total : ∀ a b, le a b ∨ le b a
  trans : ∀ a b c, le a b → le b c → le a c

section Ties

variable {le : ρ → ρ → Prop} {rows : List ρ} {x y : ρ}

theorem IsOrder.refl (order : IsOrder le) (a : ρ) : le a a := by
  rcases order.total a a with below | below <;> exact below

theorem IsOrder.exists_arranged (order : IsOrder le) (rows : List ρ) :
    ∃ arranged, Arranged le rows arranged := by
  classical
  refine ⟨rows.mergeSort fun a b => decide (le a b), List.mergeSort_perm _ _, ?_⟩
  have sorted : (rows.mergeSort fun a b => decide (le a b)).Pairwise
      fun a b => decide (le a b) = true :=
    List.pairwise_mergeSort (fun a b c => by simpa using order.trans a b c)
      (fun a b => by simpa using order.total a b) rows
  simpa using sorted

theorem Arranged.unique {first second : List ρ} (one : Arranged le rows first)
    (two : Arranged le rows second)
    (untied : ∀ a ∈ rows, ∀ b ∈ rows, le a b → le b a → a = b) : first = second := by
  exact List.Perm.eq_of_pairwise (fun a b inside inside' =>
    untied a (one.perm.mem_iff.mp inside) b (two.perm.mem_iff.mp inside')) one.sorted two.sorted
      (one.perm.trans two.perm.symm)

/-- Two rows that tie can stand side by side, either of them first. -/
theorem IsOrder.exists_arranged_tied (order : IsOrder le) (firstIn : x ∈ rows) (secondIn : y ∈ rows)
    (differ : x ≠ y) (below : le x y) (above : le y x) :
    ∃ before after, Arranged le rows (before ++ x :: y :: after) ∧
      Arranged le rows (before ++ y :: x :: after) := by
  classical
  obtain ⟨others, apart⟩ : ∃ others, rows.Perm (x :: y :: others) := by
    have still : y ∈ rows.erase x := (List.mem_erase_of_ne differ.symm).mpr secondIn
    exact ⟨(rows.erase x).erase y,
      (List.perm_cons_erase firstIn).trans ((List.perm_cons_erase still).cons x)⟩
  obtain ⟨low, lows⟩ := order.exists_arranged (others.filter fun a => decide (¬le x a))
  obtain ⟨high, highs⟩ := order.exists_arranged (others.filter fun a => decide (le x a))
  have lowLe : ∀ a ∈ low, le a x := by
    intro a inside
    have kept := of_decide_eq_true (List.mem_filter.mp (lows.perm.mem_iff.mp inside)).2
    exact (order.total x a).resolve_left kept
  have highGe : ∀ a ∈ high, le x a := by
    intro a inside
    exact of_decide_eq_true (List.mem_filter.mp (highs.perm.mem_iff.mp inside)).2
  have parts : (low ++ high).Perm others := by
    refine (lows.perm.append highs.perm).trans (List.perm_append_comm.trans ?_)
    have split := List.filter_append_perm (fun a => decide (le x a)) others
    simpa using split
  have arranged (u v : ρ) (towards : le u v) (fromLow : ∀ a ∈ low, le a u) (lowV : le v x)
      (toHigh : ∀ a ∈ high, le v a) (whole : rows.Perm (u :: v :: others)) :
      Arranged le rows (low ++ u :: v :: high) := by
    refine ⟨?_, ?_⟩
    · refine List.Perm.trans ?_ whole.symm
      refine List.perm_middle.trans (List.Perm.cons u ?_)
      exact List.perm_middle.trans (parts.cons v)
    · refine List.pairwise_append.mpr ⟨lows.sorted, ?_, ?_⟩
      · refine List.pairwise_cons.mpr ⟨fun a inside => ?_, List.pairwise_cons.mpr ⟨toHigh, highs.sorted⟩⟩
        rcases List.mem_cons.mp inside with rfl | late
        · exact towards
        · exact order.trans _ _ _ towards (toHigh a late)
      · intro a early b late
        have first := fromLow a early
        rcases List.mem_cons.mp late with rfl | late
        · exact first
        · rcases List.mem_cons.mp late with rfl | late
          · exact order.trans _ _ _ first towards
          · exact order.trans _ _ _ (order.trans _ _ _ first towards) (toHigh b late)
  refine ⟨low, high, arranged x y below lowLe above (fun a inside => ?_) apart,
    arranged y x above (fun a inside => ?_) (order.refl x) highGe (apart.trans (.swap y x others))⟩
  · exact order.trans _ _ _ above (highGe a inside)
  · exact order.trans _ _ _ (lowLe a inside) below

end Ties

/-! ## What is covered -/

section Covered

variable {le : ρ → ρ → Prop} {rows before after : List ρ} {x y : ρ} {take : Nat}

theorem covers_of_untied {request : Nat → Option String → Except ε (Page σ)} {item : ρ → σ}
    {arranged : Nat → List ρ} (size : 1 ≤ take) (named : ∀ row ∈ rows, id row ≠ "")
    (distinct : (rows.map id).Nodup) (untied : ∀ a ∈ rows, ∀ b ∈ rows, le a b → le b a → a = b)
    (asked : ∀ k, Arranged le rows (arranged k))
    (answers : ∀ k cursor, cursor ≠ some "" →
      request k cursor = .ok ((pageAfter id take (arranged k) cursor).map item)) :
    Covers request (rows.map item) := by
  have same (k : Nat) : arranged k = arranged 0 := (asked k).unique (asked 0) untied
  have perm := (asked 0).perm
  refine ⟨(arranged 0).length + 1, (arranged 0).map item, ?_, perm.map item⟩
  have named' : ∀ row ∈ arranged 0, id row ≠ "" := fun row inside =>
    named row (perm.mem_iff.mp inside)
  have distinct' : ((arranged 0).map id).Nodup := (perm.map id).nodup_iff.mpr distinct
  have done : ([] : List ρ).getLast?.map id = none := rfl
  rw [← done]
  exact follow_pageAfter size named' distinct' (fun k cursor given => same k ▸ answers k cursor given)
    rfl (Nat.lt_succ_self _)

/-- The requests of one row each in which `y` comes after `x` until `x` was returned, and before it
from then on. -/
def swapping (before after : List ρ) (x y : ρ) (k : Nat) : List ρ :=
  if k ≤ before.length then before ++ x :: y :: after else before ++ y :: x :: after

variable {request : Nat → Option String → Except ε (Page ρ)}
  (named : ∀ row ∈ before ++ x :: y :: after, id row ≠ "")
  (distinct : ((before ++ x :: y :: after).map id).Nodup)
  (answers : ∀ k cursor, cursor ≠ some "" →
    request k cursor = .ok (pageAfter id 1 (swapping before after x y k) cursor))

include named distinct answers

/-- After `x` only what comes after both is returned. -/
theorem not_mem_follow_late {fuel k : Nat} {skipped rest all : List ρ} {row : ρ}
    (late : before.length < k) (split : x :: after = skipped ++ row :: rest)
    (ends : follow request fuel k (some (id row)) = .ok (some all)) : y ∉ all := by
  induction fuel generalizing k skipped rest row all with
  | zero => cases ends
  | succ fuel ih =>
      have order : swapping before after x y k = (before ++ y :: skipped ++ [row]) ++ rest := by
        rw [swapping, if_neg (by omega), split]
        simp
      have swapped : (before ++ x :: y :: after).Perm (before ++ y :: x :: after) :=
        (List.Perm.swap y x after).append_left before
      have distinct' : ((before ++ y :: skipped ++ [row] ++ rest).map id).Nodup := by
        rw [← order, swapping, if_neg (by omega)]
        exact (swapped.map id).nodup_iff.mp distinct
      have own : row ∈ before ++ x :: y :: after := by
        have inside : row ∈ x :: after := split ▸ List.mem_append_right _ List.mem_cons_self
        exact swapped.mem_iff.mpr (List.mem_append_right _ (List.mem_cons_of_mem y inside))
      have given : (some (id row) : Option String) ≠ some "" := fun blank =>
        named row own (Option.some.inj blank)
      have page : pageAfter id 1 (before ++ y :: skipped ++ [row] ++ rest) (some (id row)) =
          .ofRows id 1 (rest.take 2) := by
        have last : (before ++ y :: skipped ++ [row]).getLast?.map id = some (id row) := by
          rw [List.getLast?_concat, Option.map_some]
        rw [← last]
        exact pageAfter_append distinct'
      have answer := answers k _ given
      rw [order, page] at answer
      cases rest with
      | nil =>
          rw [follow, answer] at ends
          cases ends
          exact List.not_mem_nil
      | cons r rest =>
          have other : y ≠ r := by
            rintro rfl
            rw [List.append_assoc, List.append_assoc, List.map_append, List.nodup_append] at distinct'
            simp at distinct'
          cases rest with
          | nil =>
              rw [follow, answer] at ends
              cases ends
              exact fun inside => other (List.mem_singleton.mp inside)
          | cons r' rest =>
              obtain ⟨others, onwards, rfl⟩ := follow_next answer ends
              have still := ih (by omega) (by rw [split]; exact List.append_cons _ _ _) onwards
              intro inside
              rcases List.mem_cons.mp inside with same | inside
              · exact other same
              · exact still inside

theorem not_mem_follow_early {fuel k : Nat} {all : List ρ} (early : k ≤ before.length)
    (ends : follow request fuel k (((before ++ x :: y :: after).take k).getLast?.map id) =
      .ok (some all)) : y ∉ all := by
  induction fuel generalizing k all with
  | zero => cases ends
  | succ fuel ih =>
      let rows := before ++ x :: y :: after
      have long : k + 1 < rows.length := by simp [rows]; omega
      have order : swapping before after x y k = rows.take k ++ rows.drop k := by
        rw [swapping, if_pos early, List.take_append_drop]
      have given : (rows.take k).getLast?.map id ≠ some "" := by
        intro blank
        obtain ⟨row, last, empty⟩ := Option.map_eq_some_iff.mp blank
        exact named row (List.mem_of_mem_take (List.mem_of_getLast? last)) empty
      have split : rows.drop k = rows[k] :: rows[k + 1] :: rows.drop (k + 2) := by
        rw [List.drop_eq_getElem_cons (by omega), List.drop_eq_getElem_cons long]
      have page : pageAfter id 1 (rows.take k ++ rows.drop k) ((rows.take k).getLast?.map id) =
          ⟨[rows[k]], some (id rows[k])⟩ := by
        rw [pageAfter_append (by rw [List.take_append_drop]; exact distinct), split]
        rfl
      have answer := answers k _ given
      rw [order, page] at answer
      obtain ⟨others, onwards, rfl⟩ := follow_next answer ends
      have other : y ≠ rows[k] := by
        have own : rows[before.length + 1]? = some y := by simp [rows]
        intro same
        rw [same, ← List.getElem?_eq_getElem] at own
        have place := (List.getElem?_inj (Nat.lt_of_succ_lt long)
          (List.Nodup.of_map id distinct)).mp own.symm
        omega
      have still : y ∉ others := by
        rcases early.lt_or_eq with earlier | rfl
        · refine ih earlier ?_
          rw [List.take_succ_eq_append_getElem (by simpa [rows] using by omega), List.getLast?_concat]
          exact onwards
        · have first : rows[before.length] = x := by simp [rows]
          rw [first] at onwards
          exact not_mem_follow_late named distinct answers (Nat.lt_succ_self _)
            (List.nil_append _).symm onwards
      intro inside
      rcases List.mem_cons.mp inside with same | inside
      · exact other same
      · exact still inside

omit named distinct answers

/-- Rows that tie may come in such orders that one of them is never returned. -/
theorem IsOrder.exists_uncovered {le : ρ → ρ → Prop} {rows : List ρ} {x y : ρ}
    (order : IsOrder le) (named : ∀ row ∈ rows, id row ≠ "") (distinct : (rows.map id).Nodup)
    (firstIn : x ∈ rows) (secondIn : y ∈ rows) (differ : x ≠ y) (below : le x y) (above : le y x) :
    ∃ arranged : Nat → List ρ, (∀ k, Arranged le rows (arranged k)) ∧
      ∀ request : Nat → Option String → Except ε (Page ρ),
        (∀ k cursor, cursor ≠ some "" →
          request k cursor = .ok (pageAfter id 1 (arranged k) cursor)) → ¬Covers request rows := by
  obtain ⟨before, after, one, two⟩ :=
    order.exists_arranged_tied firstIn secondIn differ below above
  refine ⟨swapping before after x y, fun k => ?_, fun request answers => ?_⟩
  · unfold swapping
    split
    · exact one
    · exact two
  · rintro ⟨fuel, all, ends, perm⟩
    have named' : ∀ row ∈ before ++ x :: y :: after, id row ≠ "" := fun row inside =>
      named row (one.perm.mem_iff.mp inside)
    have distinct' := (one.perm.map id).nodup_iff.mpr distinct
    exact not_mem_follow_early named' distinct' answers (Nat.zero_le _) ends
      (perm.mem_iff.mpr secondIn)

end Covered

end Data.Pages
