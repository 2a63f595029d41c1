import Mathlib.Data.List.Induction
import Mathlib.Data.List.Nodup
import Mathlib.Logic.Function.Basic

/-!
# Tickets

A desk holds at most one ticket for each place: issuing a ticket replaces what the desk held, a
ticket is redeemed at its place only while the desk holds it and is given up there, and at any time
the desk may drop tickets. When no ticket is issued twice, a redeemed ticket is the latest that was
issued for its place, and was never redeemed before.
-/

namespace Data.Tickets

/-- What happens at a desk with places `κ` and tickets `τ`. -/
inductive Act (κ τ : Type) where
  | issue (place : κ) (ticket : τ)
  | redeem (place : κ) (ticket : τ)
  | other

section

variable {κ τ : Type}

def Act.issued : Act κ τ → Option τ
  | .issue _ ticket => some ticket
  | _ => none

/-- A ticket that is issued once is issued for one place. -/
theorem place_unique {acts : List (Act κ τ)} {place place' : κ} {ticket : τ} (once : (acts.filterMap Act.issued).Nodup)
    (there : .issue place ticket ∈ acts) (there' : .issue place' ticket ∈ acts) : place = place' := by
  induction acts with
  | nil => cases there
  | cons act acts ih =>
      have rest : (acts.filterMap Act.issued).Nodup :=
        once.sublist ((List.sublist_cons_self act acts).filterMap _)
      have fresh {place : κ} (late : .issue place ticket ∈ acts) {place' : κ}
          (first : act = .issue place' ticket) : False := by
        rw [first, List.filterMap_cons_some (by rfl : Act.issued (.issue place' ticket) = some ticket),
          List.nodup_cons] at once
        exact once.1 (List.mem_filterMap.mpr ⟨_, late, rfl⟩)
      rcases List.mem_cons.mp there with first | late
      · rcases List.mem_cons.mp there' with first' | late'
        · cases first.trans first'.symm
          rfl
        · exact (fresh late' first.symm).elim
      · rcases List.mem_cons.mp there' with first' | late'
        · exact (fresh late first'.symm).elim
        · exact ih rest late late'

variable [DecidableEq κ]

/-- How an act changes what the desk holds. -/
inductive Step : (κ → Option τ) → Act κ τ → (κ → Option τ) → Prop
  | issue {held : κ → Option τ} (place : κ) (ticket : τ) :
      Step held (.issue place ticket) (Function.update held place (some ticket))
  | redeem {held : κ → Option τ} {place : κ} {ticket : τ} (there : held place = some ticket) :
      Step held (.redeem place ticket) (Function.update held place none)
  | other {held held' : κ → Option τ}
      (drops : ∀ place ticket, held' place = some ticket → held place = some ticket) :
      Step held .other held'

/-- The acts at a desk that held nothing at first, and what it holds then. -/
inductive Run : List (Act κ τ) → (κ → Option τ) → Prop
  | start : Run [] fun _ => none
  | step {acts : List (Act κ τ)} {held held' : κ → Option τ} {act : Act κ τ}
      (before : Run acts held) (step : Step held act held') : Run (acts ++ [act]) held'

/-- The ticket that was issued last for a place. -/
def latest (place : κ) (acts : List (Act κ τ)) : Option τ :=
  acts.foldl (fun last act =>
    match act with
    | .issue place' ticket => if place' = place then some ticket else last
    | _ => last) none

variable {acts : List (Act κ τ)} {held held' : κ → Option τ} {place : κ} {ticket : τ}

theorem latest_snoc_issue {place' : κ} :
    latest place (acts ++ [.issue place' ticket]) =
      if place' = place then some ticket else latest place acts := by
  rw [latest, List.foldl_append]
  rfl

theorem latest_snoc_redeem {place' : κ} :
    latest place (acts ++ [.redeem place' ticket]) = latest place acts := by
  rw [latest, List.foldl_append]
  rfl

theorem latest_snoc_other : latest place (acts ++ [.other]) = latest place acts := by
  rw [latest, List.foldl_append]
  rfl

theorem mem_of_latest (last : latest place acts = some ticket) : .issue place ticket ∈ acts := by
  induction acts using List.reverseRecOn with
  | nil => cases last
  | append_singleton acts act ih =>
      cases act with
      | issue place' ticket' =>
          rw [latest_snoc_issue] at last
          split at last
          · rename_i same
            cases last
            rw [same]
            exact List.mem_append_right _ List.mem_cons_self
          · exact List.mem_append_left _ (ih last)
      | redeem place' ticket' =>
          rw [latest_snoc_redeem] at last
          exact List.mem_append_left _ (ih last)
      | other =>
          rw [latest_snoc_other] at last
          exact List.mem_append_left _ (ih last)

/-- What holds at any time: a ticket that is held is the latest for its place and unused, and what
was redeemed had been issued. -/
structure Sound (acts : List (Act κ τ)) (held : κ → Option τ) : Prop where
  latest : ∀ place ticket, held place = some ticket → latest place acts = some ticket
  unused : ∀ place ticket, held place = some ticket → ∀ place', .redeem place' ticket ∉ acts
  issued : ∀ place ticket, .redeem place ticket ∈ acts → .issue place ticket ∈ acts

theorem Sound.step {act : Act κ τ} (sound : Sound acts held) (step : Step held act held')
    (once : ((acts ++ [act]).filterMap Act.issued).Nodup) : Sound (acts ++ [act]) held' := by
  have before : (acts.filterMap Act.issued).Nodup :=
    once.sublist ((List.sublist_append_left acts [act]).filterMap _)
  cases step with
  | issue place ticket =>
      have fresh {place' : κ} : .redeem place' ticket ∉ acts := by
        intro used
        rw [List.filterMap_append, List.nodup_append] at once
        exact once.2.2 ticket (List.mem_filterMap.mpr ⟨_, sound.issued _ _ used, rfl⟩) ticket
          List.mem_cons_self rfl
      have early {place' : κ} {ticket' : τ}
          (used : .redeem place' ticket' ∈ acts ++ [.issue place ticket]) :
          .redeem place' ticket' ∈ acts := by simpa using used
      refine ⟨fun place' ticket' there => ?_, fun place' ticket' there other used => ?_,
        fun place' ticket' used => List.mem_append_left _ (sound.issued _ _ (early used))⟩
      · rw [latest_snoc_issue]
        by_cases same : place' = place
        · rw [same, Function.update_self] at there
          rw [if_pos same.symm, there]
        · rw [Function.update_of_ne same] at there
          rw [if_neg (Ne.symm same)]
          exact sound.latest _ _ there
      · by_cases same : place' = place
        · rw [same, Function.update_self] at there
          cases there
          exact fresh (early used)
        · rw [Function.update_of_ne same] at there
          exact sound.unused _ _ there other (early used)
  | @redeem place ticket there =>
      have issued : .issue place ticket ∈ acts := mem_of_latest (sound.latest _ _ there)
      have kept {place' : κ} {ticket' : τ}
          (there : Function.update held place none place' = some ticket') :
          place' ≠ place ∧ held place' = some ticket' := by
        by_cases same : place' = place
        · rw [same, Function.update_self] at there
          cases there
        · rw [Function.update_of_ne same] at there
          exact ⟨same, there⟩
      refine ⟨fun place' ticket' there => ?_, fun place' ticket' there other used => ?_,
        fun place' ticket' used => ?_⟩
      · rw [latest_snoc_redeem]
        exact sound.latest _ _ (kept there).2
      · obtain ⟨apart, there⟩ := kept there
        rcases List.mem_append.mp used with early | last
        · exact sound.unused _ _ there other early
        · cases List.mem_singleton.mp last
          exact apart (place_unique before (mem_of_latest (sound.latest _ _ there)) issued)
      · rcases List.mem_append.mp used with early | last
        · exact List.mem_append_left _ (sound.issued _ _ early)
        · cases List.mem_singleton.mp last
          exact List.mem_append_left _ issued
  | other drops =>
      have early {place' : κ} {ticket' : τ} (used : .redeem place' ticket' ∈ acts ++ [.other]) :
          .redeem place' ticket' ∈ acts := by simpa using used
      refine ⟨fun place' ticket' there => ?_, fun place' ticket' there other used => ?_,
        fun place' ticket' used => List.mem_append_left _ (sound.issued _ _ (early used))⟩
      · rw [latest_snoc_other]
        exact sound.latest _ _ (drops _ _ there)
      · exact sound.unused _ _ (drops _ _ there) other (early used)

theorem Run.sound (run : Run acts held) (once : (acts.filterMap Act.issued).Nodup) :
    Sound acts held := by
  induction run with
  | start => exact ⟨nofun, nofun, nofun⟩
  | @step acts _ _ act _ step ih =>
      have before : (acts.filterMap Act.issued).Nodup :=
        once.sublist ((List.sublist_append_left acts [act]).filterMap _)
      exact (ih before).step step once

/-- A redeemed ticket is the latest for its place, and is redeemed for the first time. -/
theorem Run.redeemed {before after : List (Act κ τ)} (run : Run acts held)
    (once : (acts.filterMap Act.issued).Nodup)
    (parts : acts = before ++ .redeem place ticket :: after) :
    latest place before = some ticket ∧ ∀ place', .redeem place' ticket ∉ before := by
  induction run generalizing after with
  | start => exact (List.append_ne_nil_of_right_ne_nil _ (List.cons_ne_nil _ _) parts.symm).elim
  | @step acts held _ act run step ih =>
      have earlier : (acts.filterMap Act.issued).Nodup :=
        once.sublist ((List.sublist_append_left acts [act]).filterMap _)
      rcases List.eq_nil_or_concat after with rfl | ⟨rest, last, rfl⟩
      · obtain ⟨rfl, same⟩ := List.append_inj' parts rfl
        cases same
        cases step with
        | redeem there =>
            have sound := run.sound earlier
            exact ⟨sound.latest _ _ there, sound.unused _ _ there⟩
      · rw [List.concat_eq_append, ← List.cons_append, ← List.append_assoc] at parts
        exact ih earlier (List.append_inj' parts rfl).1

end

end Data.Tickets
