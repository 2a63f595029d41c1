import BirthHub.Effect.Rely
import BirthHub.Members.Service

/-!
# Organizations, their members and their invites

Memberships and invites name an organization and a tenant, and no statement but that of a new
organization or a new invite looks at both. They agree all the same (`members_coherent`): whatever
requests interleave, and whatever fails, every membership and every invite is of an organization
and its own tenant, and a user is in an organization once. An acceptance is the only transaction
that writes what it was handed, so it relies on what the invite named when it was read, and on
organizations that stay (`Store.Offers`).

No invite that was accepted or revoked is pending again, and none changes what it offers
(`invites_later`). One that was revoked may still be accepted: the acceptance looks at the status
before its transaction.
-/

namespace Members

open Data Effect
open Auth (AuthIface Crypto ApiConfig)

/-! ## The system -/

/-- What happens beside the operations of the requests. -/
inductive Happening
  | arrives (request : Request)
  | elapses (ms : Nat)
  /-- `inviteCleanupJob` of the worker. -/
  | cleansUp

/-- The database when some time has passed. -/
def Store.later (store : Store) (ms : Nat) : Store :=
  { store with auth := { store.auth with clock := store.auth.clock + ms } }

/-- The database without the invites that have expired. -/
def Store.inviteCleanup (store : Store) : Store :=
  { store with invites := store.invites.filter (store.auth.clock ≤ ·.expiresAt) }

/-- Requests arrive at any time, each awaits its operations, time passes, and old invites go. -/
def lifecycle (crypto : Crypto) (config : ApiConfig) :
    System MemberIface Request Store Response where
  Choice := Choice
  handle o choice store := store.handle o choice
  program := serveRequest crypto config
  Env := Happening
  env happening store _ := match happening with
    | .arrives request => some { store, spawn := [request] }
    | .elapses ms => some { store := store.later ms }
    | .cleansUp => some { store := store.inviteCleanup }

/-- The world at the start: no request has arrived. -/
def idle {β : Type} (store : Store) : World MemberIface Request Store β := ⟨store, [], []⟩

/-! ## What the database keeps -/

/-- The organizations with their tenants. -/
def Store.homes (s : Store) : List (String × String) :=
  s.auth.organizations.map fun o => (o.id, o.tenantId)

/-- Whose membership it is, and of what. -/
def Membership.place (m : Membership) : String × String := (m.organizationId, m.userId)

def Membership.home (m : Membership) : String × String := (m.organizationId, m.tenantId)

def Invite.home (invite : Invite) : String × String := (invite.organizationId, invite.tenantId)

/-- Every membership and every invite is of an organization and its tenant, and no user has two
memberships of an organization. -/
structure Store.Coherent (s : Store) : Prop where
  memberships : s.memberships.map Membership.home ⊆ s.homes
  once : (s.memberships.map Membership.place).Nodup
  invites : s.invites.map Invite.home ⊆ s.homes

/-- An invite that is to be accepted is to an organization of its tenant. -/
def Store.Offers (s : Store) : MemberOp → Prop
  | .acceptInvite invite _ _ => invite.home ∈ s.homes
  | _ => True

/-- What an invite has from its creation on. -/
def Invite.offer (invite : Invite) : Invite :=
  { invite with status := .PENDING, acceptedAt := none, revokedAt := none }

/-- Invites are new, or were there with the same offer, and are not pending again. -/
structure Store.Later (s s' : Store) : Prop where
  ids : s.auth.ids ≤ s'.auth.ids
  invites : ∀ i' ∈ s'.invites, s.auth.ids ≤ i'.id ∨
    ∃ i ∈ s.invites, i'.offer = i.offer ∧ (i.status ≠ .PENDING → i'.status ≠ .PENDING)

section Within

variable {α : Type} {crypto : Crypto} {config : ApiConfig} {s : Store}

/-- The functions of the authentication service accept no invite. -/
theorem embed_within (p : Prog AuthIface α) : (p.embed asMember).Within s.Offers :=
  (Prog.Within.all p).embed fun _ _ => trivial

/-- Only the acceptance of an invite awaits its transaction. -/
theorem serveRequest_within {request : Request}
    (other : ∀ token userId, request ≠ .acceptInvite token userId) :
    (serveRequest crypto config request).Within s.Offers := by
  cases request with
  | acceptInvite token userId => exact absurd rfl (other token userId)
  | _ =>
      -- operations, programs of the authentication service, and distinctions between them
      repeat' first
        | exact embed_within _
        | exact Prog.Within.perform trivial
        | trivial
        | refine Prog.Within.bind ?_ fun _ => ?_
        | refine Prog.Within.tryCatch ?_ fun _ => ?_
        | refine Prog.Within.ite ?_ ?_
        | unfold resolveTenantFromRequest
        | unfold requireAuthenticatedSession
        | unfold assertManageableTarget
        | unfold resolveDefaultExpiry
        | split

end Within

section Steps

variable {s s' : Store} {o : MemberOp} {choice : Choice} {answer : MemberIface.Answer o}

theorem Store.Offers.along (stay : s.homes ⊆ s'.homes) (offers : s.Offers o) : s'.Offers o := by
  cases o with
  | acceptInvite invite userId acceptedAt => exact stay offers
  | _ => trivial

/-- Rows that are changed in place keep what a function reads of them. -/
theorem map_ite_eq {β γ : Type} {p : β → Prop} [DecidablePred p] {f : β → β} {g : β → γ}
    (rows : List β) (kept : ∀ row, g (f row) = g row) :
    (rows.map fun row => if p row then f row else row).map g = rows.map g := by
  rw [List.map_map]
  refine List.map_congr_left fun row _ => ?_
  rw [Function.comp_apply]
  split
  · exact kept row
  · rfl

/-- No organization is new. -/
theorem Store.Coherent.of_rows (same : s'.auth.organizations = s.auth.organizations)
    (memberships : s'.memberships.map Membership.home ⊆ s.homes)
    (once : (s'.memberships.map Membership.place).Nodup)
    (invites : s'.invites.map Invite.home ⊆ s.homes) : s'.Coherent ∧ s.homes ⊆ s'.homes :=
  have homes : s'.homes = s.homes := by rw [Store.homes, same, Store.homes]
  ⟨⟨homes ▸ memberships, once, homes ▸ invites⟩, homes ▸ List.Subset.refl _⟩

theorem Store.Coherent.append {m : Membership} (coherent : s.Coherent) (stay : s.homes ⊆ s'.homes)
    (memberships : s'.memberships = s.memberships ++ [m]) (held : m.home ∈ s'.homes)
    (new : m.place ∉ s.memberships.map Membership.place)
    (invites : s'.invites.map Invite.home ⊆ s'.homes) : s'.Coherent where
  memberships := by
    rw [memberships, List.map_append]
    exact List.append_subset.mpr ⟨List.Subset.trans coherent.memberships stay, by simpa using held⟩
  once := by
    rw [memberships, List.map_append]
    exact coherent.once.append (List.nodup_singleton _) (List.disjoint_singleton.mpr new)
  invites := invites

/-- An operation that changes memberships in place, and no invite. -/
theorem Store.Coherent.changes {p : Membership → Bool} {f : Membership → Membership}
    (coherent : s.Coherent) (organizations : s'.auth.organizations = s.auth.organizations)
    (memberships : s'.memberships = s.memberships.map fun m => if p m then f m else m)
    (kept : ∀ m, (f m).place = m.place ∧ (f m).home = m.home)
    (invites : s'.invites = s.invites) : s'.Coherent ∧ s.homes ⊆ s'.homes := by
  refine Store.Coherent.of_rows organizations ?_ ?_ (invites ▸ coherent.invites)
  · rw [memberships, map_ite_eq _ fun m => (kept m).2]
    exact coherent.memberships
  · rw [memberships, map_ite_eq _ fun m => (kept m).1]
    exact coherent.once

/-- An operation that changes rows of the authentication service only. -/
theorem Store.Coherent.beside {auth : Auth.Store} (coherent : s.Coherent)
    (organizations : auth.organizations = s.auth.organizations) :
    Store.Coherent { s with auth } ∧ s.homes ⊆ Store.homes { s with auth } :=
  coherent.changes (p := fun _ => false) (f := id) organizations (by simp)
    (fun _ => ⟨rfl, rfl⟩) rfl

theorem handle_performs (answered : s.handle o choice = some (answer, s')) :
    s' = s ∨ s.perform choice o = some (answer, s') := by
  cases fault : choice.fault with
  | none =>
      right
      rw [← answered]
      cases o <;> simp only [Store.handle, fault]
  | some e =>
      cases o with
      | auth o => exact .inr answered
      | _ =>
          simp only [Store.handle, fault] at answered
          cases answered
          exact .inl rfl

theorem invitedUser_organizations {invite : Invite} {userId : Option String} {id : String}
    {auth : Auth.Store} (found : s.invitedUser choice invite userId = some (id, auth)) :
    auth.organizations = s.auth.organizations := by
  unfold Store.invitedUser at found
  split at found
  · cases found
    rfl
  · split at found
    · cases found
      rfl
    · obtain ⟨users, _, same⟩ := Option.map_eq_some_iff.mp found
      cases same
      rfl

/-- The acceptance of an invite that was read. -/
theorem Store.Coherent.accept {invite : Invite} {userId : Option String} {acceptedAt : Int}
    {answer : MemberIface.Answer (.acceptInvite invite userId acceptedAt)} (coherent : s.Coherent)
    (offers : invite.home ∈ s.homes)
    (performed : s.perform choice (.acceptInvite invite userId acceptedAt) = some (answer, s')) :
    s'.Coherent ∧ s.homes ⊆ s'.homes := by
  have unchanged : s.Coherent ∧ s.homes ⊆ s.homes := ⟨coherent, List.Subset.refl _⟩
  simp only [Store.perform] at performed
  (repeat' split at performed) <;> cases performed <;> try exact unchanged
  rename_i id auth found _
  have same := invitedUser_organizations found
  cases existing : s.membership invite.organizationId id with
  | some m =>
      simp only [Store.upsertMembership, existing]
      refine Store.Coherent.of_rows same (fun home inside => ?_) ?_ ?_
      · obtain ⟨m', there, rfl⟩ := List.mem_map.mp inside
        obtain ⟨m, before, rfl⟩ := List.mem_map.mp there
        split
        · rename_i own
          rw [Membership.isOf, decide_eq_true_eq] at own
          rw [Membership.home, own.1]
          exact offers
        · exact coherent.memberships (List.mem_map_of_mem before)
      · dsimp only
        rw [map_ite_eq]
        · exact coherent.once
        · exact fun _ => rfl
      · dsimp only
        rw [map_ite_eq]
        · exact coherent.invites
        · exact fun _ => rfl
  | none =>
      simp only [Store.upsertMembership, existing]
      have stay : s.homes ⊆ auth.organizations.map fun o => (o.id, o.tenantId) := by
        rw [same, Store.homes]
        exact List.Subset.refl _
      refine ⟨coherent.append stay rfl (stay offers) ?_ ?_, stay⟩
      · intro inside
        obtain ⟨m, there, own⟩ := List.mem_map.mp inside
        have other := List.find?_eq_none.mp existing m there
        simp only [Membership.place, Prod.mk.injEq] at own
        simp [Membership.isOf, own.1, own.2] at other
      · dsimp only
        rw [map_ite_eq]
        · exact List.Subset.trans coherent.invites stay
        · exact fun _ => rfl

theorem Store.Coherent.handle (coherent : s.Coherent) (offers : s.Offers o)
    (answered : s.handle o choice = some (answer, s')) : s'.Coherent ∧ s.homes ⊆ s'.homes := by
  have unchanged : s.Coherent ∧ s.homes ⊆ s.homes := ⟨coherent, List.Subset.refl _⟩
  rcases handle_performs answered with rfl | performed
  · exact unchanged
  cases o with
  | auth o =>
      rcases after : s.seen.handle o choice.toChoice with ⟨answer', auth⟩
      simp only [Store.perform, after] at performed
      cases performed
      exact coherent.beside (Auth.Store.handle_organizations after).1
  | acceptInvite invite userId acceptedAt => exact coherent.accept offers performed
  | createOrganization input passwordHash =>
      simp only [Store.perform] at performed
      split at performed
      · rename_i isNew
        have stay := ((List.sublist_append_left s.auth.organizations
          [⟨choice.newOrganizationId, choice.newTenantId, input.slug⟩]).map
            fun o => (o.id, o.tenantId)).subset
        split at performed <;> cases performed
        · refine ⟨coherent.append stay rfl (List.mem_map_of_mem
            (List.mem_append_right _ (.head _))) ?_ (List.Subset.trans coherent.invites stay), stay⟩
          intro inside
          obtain ⟨m, there, own⟩ := List.mem_map.mp inside
          simp only [Store.isNew, Store.isNewUser, Bool.and_eq_true, List.all_eq_true,
            decide_eq_true_eq] at isNew
          exact isNew.2.2 m there (congrArg Prod.snd own)
        · exact unchanged
      · cases performed
  | createInvite data =>
      simp only [Store.perform] at performed
      split at performed
      · rename_i there
        split at performed <;> cases performed
        · exact unchanged
        · refine Store.Coherent.of_rows rfl coherent.memberships coherent.once ?_
          rw [List.map_append]
          exact List.append_subset.mpr ⟨coherent.invites, by
            simpa [Store.homes, Invite.home, InviteData.row] using there⟩
      · cases performed
        exact unchanged
  | revokeInvite inviteId tenantId revokedAt =>
      simp only [Store.perform] at performed
      split at performed <;> cases performed
      · exact unchanged
      · refine Store.Coherent.of_rows rfl coherent.memberships coherent.once ?_
        dsimp only
        rw [map_ite_eq]
        · exact coherent.invites
        · exact fun _ => rfl
  | removeMember memberId organizationId tenantId =>
      simp only [Store.perform] at performed
      (repeat' split at performed) <;> cases performed
      · exact unchanged
      · have fewer (p : Membership → Bool) := List.filter_sublist (p := p) (l := s.memberships)
        exact Store.Coherent.of_rows rfl
          (List.Subset.trans ((fewer _).map _).subset coherent.memberships)
          (coherent.once.sublist ((fewer _).map _)) coherent.invites
      · exact unchanged
  | _ =>
      -- reads, and changes of rows in place
      simp only [Store.perform] at performed
      (repeat' split at performed) <;> cases performed <;> first
        | exact unchanged
        | exact coherent.beside rfl
        | exact coherent.changes rfl rfl (fun _ => ⟨rfl, rfl⟩) rfl

theorem Store.Later.refl : s.Later s :=
  ⟨le_rfl, fun i inside => .inr ⟨i, inside, rfl, id⟩⟩

theorem Store.Later.trans {s₁ : Store} (first : s.Later s₁) (second : s₁.Later s') :
    s.Later s' := by
  refine ⟨first.ids.trans second.ids, fun i' inside => ?_⟩
  rcases second.invites i' inside with new | ⟨i₁, inside₁, same₁, left₁⟩
  · exact .inl (first.ids.trans new)
  · rcases first.invites i₁ inside₁ with new | ⟨i, before, same, left⟩
    · exact .inl (new.trans_eq (congrArg Invite.id same₁).symm)
    · exact .inr ⟨i, before, same₁.trans same, fun was => left₁ (left was)⟩

/-- Some of the invites are settled now. -/
theorem Store.Later.of_settled {p : Invite → Prop} [DecidablePred p] {f : Invite → Invite}
    (ids : s.auth.ids ≤ s'.auth.ids)
    (invites : s'.invites = s.invites.map fun i => if p i then f i else i)
    (settles : ∀ i, (f i).offer = i.offer ∧ (f i).status ≠ .PENDING) : s.Later s' := by
  refine ⟨ids, fun i' inside => .inr ?_⟩
  obtain ⟨i, before, rfl⟩ := List.mem_map.mp (invites ▸ inside)
  refine ⟨i, before, ?_⟩
  split
  · exact ⟨(settles i).1, fun _ => (settles i).2⟩
  · exact ⟨rfl, id⟩

theorem Store.Later.handle (answered : s.handle o choice = some (answer, s')) : s.Later s' := by
  have there := (@Store.Later.refl s).invites
  rcases handle_performs answered with rfl | performed
  · exact .refl
  cases o with
  | auth o =>
      rcases after : s.seen.handle o choice.toChoice with ⟨answer', auth⟩
      simp only [Store.perform, after] at performed
      cases performed
      exact ⟨(Auth.Store.handle_organizations after).2, there⟩
  | createInvite data =>
      simp only [Store.perform] at performed
      (repeat' split at performed) <;> cases performed <;> try exact .refl
      refine ⟨Nat.le_succ _, fun i inside => ?_⟩
      rcases List.mem_append.mp inside with before | last
      · exact .inr ⟨i, before, rfl, id⟩
      · exact .inl (List.mem_singleton.mp last ▸ le_rfl)
  | acceptInvite invite userId acceptedAt =>
      simp only [Store.perform] at performed
      (repeat' split at performed) <;> cases performed <;> try exact .refl
      refine .of_settled ?_ rfl fun _ => ⟨rfl, nofun⟩
      simp only [Store.upsertMembership]
      split
      · exact le_rfl
      · exact Nat.le_succ _
  | revokeInvite inviteId tenantId revokedAt =>
      simp only [Store.perform] at performed
      split at performed <;> cases performed
      · exact .refl
      · exact .of_settled le_rfl rfl fun _ => ⟨rfl, nofun⟩
  | _ =>
      simp only [Store.perform] at performed
      (repeat' split at performed) <;> cases performed <;> first
        | exact .refl
        | exact ⟨le_rfl, there⟩
        | exact ⟨Nat.le_succ _, there⟩

end Steps

/-! ## Runs -/

/-- An acceptance that has not begun, or a program that accepts what is in the table only. -/
def Store.Sound (crypto : Crypto) (config : ApiConfig) (s : Store)
    (p : Prog MemberIface Response) : Prop :=
  (∃ token userId, p = serveRequest crypto config (.acceptInvite token userId)) ∨
    p.Within s.Offers

section Runs

variable {crypto : Crypto} {config : ApiConfig} {s s' : Store}
  {guard : World MemberIface Request Store (Prog MemberIface Response) →
    Act Choice Happening → Prop}
  {w : World MemberIface Request Store (Prog MemberIface Response)}

theorem Store.Sound.start (s : Store) (request : Request) :
    s.Sound crypto config (serveRequest crypto config request) := by
  by_cases accepts : ∃ token userId, request = .acceptInvite token userId
  · obtain ⟨token, userId, rfl⟩ := accepts
    exact .inl ⟨token, userId, rfl⟩
  · exact .inr (serveRequest_within fun token userId same => accepts ⟨token, userId, same⟩)

theorem Store.Sound.along {p : Prog MemberIface Response} (stay : s.homes ⊆ s'.homes)
    (sound : s.Sound crypto config p) : s'.Sound crypto config p :=
  sound.imp id (Prog.Within.mono fun _ => Store.Offers.along stay)

/-- An acceptance has read an invite of the table. -/
theorem Store.Sound.step {o : MemberOp} {k : MemberIface.Answer o → Prog MemberIface Response}
    {choice : Choice} {answer : MemberIface.Answer o} (coherent : s.Coherent)
    (stay : s.homes ⊆ s'.homes) (sound : s.Sound crypto config (.op o k))
    (answered : s.handle o choice = some (answer, s')) : s'.Sound crypto config (k answer) := by
  right
  rcases sound with ⟨token, userId, same⟩ | within
  · cases same
    cases fault : choice.fault with
    | some e =>
        simp only [Store.handle, fault] at answered
        cases answered
        trivial
    | none =>
        simp only [Store.handle, fault, Store.perform] at answered
        cases answered
        refine Prog.Within.bind ?_ fun _ => trivial
        simp only [Prog.bind]
        split
        · trivial
        · rename_i invite read
          have there := List.mem_of_find?_eq_some (Option.filter_eq_some_iff.mp read).1
          refine .bind (.perform trivial) fun _ =>
            .ite trivial (.bind (.perform trivial) fun _ => ?_)
          exact .perform (coherent.invites (List.mem_map_of_mem there))
  · exact (within.2 answer).mono fun _ => Store.Offers.along stay

/-- **Coherence.** However requests interleave, and whatever fails, memberships and invites are of
an organization and its tenant, and no user is in an organization twice. -/
theorem members_coherent (coherent : s.Coherent)
    (reached : (lifecycle crypto config).Run guard (idle s) w) : w.store.Coherent := by
  refine (reached.steady (J := Store.Coherent) (T := fun s s' => s.homes ⊆ s'.homes)
    (P := fun s _ => s.Sound crypto config) (N := fun _ => True) Store.Sound.along
    Store.Sound.start
    (fun {_ _ o k choice s answer s'} coherent sound answered _ => ?_)
    (fun {event s threads c} coherent happened => ?_) coherent
    (fun _ inside => (List.not_mem_nil inside).elim) fun _ _ => trivial).1
  · have offers : s.Offers o := by
      rcases sound with ⟨token, userId, same⟩ | within
      · cases same
        trivial
      · exact within.1
    obtain ⟨coherent', stay⟩ := coherent.handle offers answered
    exact ⟨coherent', stay, sound.step coherent stay answered⟩
  · cases event <;> cases happened
    · exact ⟨coherent, List.Subset.refl _⟩
    · exact @Store.Coherent.beside _ (s.later _).auth coherent rfl
    · exact Store.Coherent.of_rows rfl coherent.memberships coherent.once
        (List.Subset.trans (List.filter_sublist.map _).subset coherent.invites)

end Runs

/-! ### An invite is accepted -/

/-- One open invite to one organization. -/
def invited : Store where
  auth := Auth.memberStore
  memberships := []
  invites := [{
    id := 0, tenantId := "tenant", organizationId := "org", email := "user@org", token := "token"
    expiresAt := 10 }]

theorem invited_coherent : invited.Coherent where
  memberships := List.nil_subset _
  once := List.nodup_nil
  invites := by decide

theorem invited_run : ∃ w, (lifecycle Auth.plainCrypto Auth.plainConfig).Run (fun _ _ => True)
    (idle invited) w ∧ decide (w.store.memberships.length = 1) = true :=
  System.Run.exists_of_execute (fun _ _ _ => trivial)
    (show ((lifecycle Auth.plainCrypto Auth.plainConfig).execute (fun _ _ => true) (idle invited)
      [.env (.arrives (.acceptInvite "token" none)), .run 0 {}, .run 0 {}, .run 0 {},
        .run 0 {}]).any _ = true by decide)

theorem invited_members : ∃ w : World MemberIface Request Store (Prog MemberIface Response),
    w.store.memberships.length = 1 ∧ w.store.Coherent := by
  obtain ⟨w, reached, member⟩ := invited_run
  exact ⟨w, of_decide_eq_true member, members_coherent invited_coherent reached⟩

end Members
