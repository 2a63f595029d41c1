import Mathlib.Data.List.Basic

/-!
# Values that wait to be stored

A value is changed in memory at once and stored later. The values that wait form a queue in which
each is made from the one before it, from the stored value to the one in memory.
-/

namespace Data

variable {τ V κ ν : Type} {update : τ → V → V} {stored memory value : V} {tag : τ}
  {queue : List (τ × V)}

/-- The queue of the values that wait, with the update that made each. -/
inductive Pending (update : τ → V → V) : V → List (τ × V) → V → Prop
  | nil {v : V} : Pending update v [] v
  | cons {tag : τ} {v v' : V} {queue : List (τ × V)}
      (rest : Pending update (update tag v) queue v') :
      Pending update v ((tag, update tag v) :: queue) v'

theorem Pending.eq_of_nil (pending : Pending update stored [] memory) : stored = memory := by
  cases pending with
  | nil => rfl

theorem Pending.head (pending : Pending update stored ((tag, value) :: queue) memory) :
    value = update tag stored ∧ Pending update value queue memory := by
  cases pending with
  | cons rest => exact ⟨rfl, rest⟩

theorem Pending.concat (pending : Pending update stored queue memory) :
    Pending update stored (queue ++ [(tag, update tag memory)]) (update tag memory) := by
  induction pending with
  | nil => exact .cons .nil
  | cons rest ih => exact .cons ih

/-- A map with the values that are set over those there were. -/
def overlay (values held : κ → Option ν) : κ → Option ν := fun key => (values key).or (held key)

theorem overlay_overlay {values earlier held : κ → Option ν} :
    overlay values (overlay earlier held) =
      overlay (fun key => (values key).or (earlier key)) held := by
  funext key
  exact Option.or_assoc.symm

end Data
