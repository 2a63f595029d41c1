import BirthHub.Auth.Service
import BirthHub.Effect.Embed

/-!
# The membership database

The rows that say who belongs to an organization (memberships with a role, invites) beside
those of the authentication service, and the statements and transactions on them. A
transaction is one operation: it takes effect as a whole, or not at all.

The tables of `Auth.Model` are part of the store. What the authentication service sees of a
membership is whether it is active.
-/

namespace Members

open Data Effect
open Auth (AuthOp AuthIface AuthError Organization User)

/-! ## Rows -/

inductive Role
  | SUPER_ADMIN
  | OWNER
  | ADMIN
  | MEMBER
  | READONLY
deriving DecidableEq, Repr

def rolePriority : Role → Nat
  | .SUPER_ADMIN => 5
  | .OWNER => 4
  | .ADMIN => 3
  | .MEMBER => 2
  | .READONLY => 1

def canManageRole (currentRole targetRole : Role) : Bool :=
  match currentRole with
  | .SUPER_ADMIN => true
  | .OWNER => true
  | .ADMIN => targetRole = .MEMBER || targetRole = .READONLY
  | _ => false

/-- `roleSchema`: the roles that an invite or the users' routes accept. -/
inductive AssignableRole
  | OWNER
  | ADMIN
  | MEMBER
  | READONLY
deriving DecidableEq, Repr

def AssignableRole.role : AssignableRole → Role
  | .OWNER => .OWNER
  | .ADMIN => .ADMIN
  | .MEMBER => .MEMBER
  | .READONLY => .READONLY

inductive MembershipStatus
  | ACTIVE
  | INVITED
  | REVOKED
deriving DecidableEq, Repr

structure Membership where
  id : Nat
  tenantId : String
  organizationId : String
  userId : String
  role : Role
  status : MembershipStatus := .ACTIVE
deriving DecidableEq

inductive InviteStatus
  | PENDING
  | ACCEPTED
  | REVOKED
  | EXPIRED
deriving DecidableEq, Repr

structure Invite where
  id : Nat
  tenantId : String
  organizationId : String
  email : String
  token : String
  role : Role := .MEMBER
  status : InviteStatus := .PENDING
  invitedByUserId : Option String := none
  expiresAt : Int
  acceptedAt : Option Int := none
  revokedAt : Option Int := none
deriving DecidableEq

structure Store where
  auth : Auth.Store
  memberships : List Membership
  invites : List Invite

/-! ## Operations -/

structure OrganizationInput where
  adminEmail : String
  adminPassword : String
  slug : String

structure InviteData where
  email : String
  expiresAt : Int
  invitedByUserId : Option String
  organizationId : String
  role : Role
  tenantId : String
  token : String

/-- The error of a failed call: one of the authentication service or the database, or
`ProblemDetailsError`. -/
inductive MemberError
  | auth (e : AuthError)
  | problem (status : Nat) (title detail : String)
deriving DecidableEq, Repr

instance : Inhabited MemberError := ⟨.auth default⟩

def badRequest (detail : String) : MemberError := .problem 400 "Bad Request" detail
def unauthorized (detail : String) : MemberError := .problem 401 "Unauthorized" detail
def forbidden (detail : String) : MemberError := .problem 403 "Forbidden" detail
def notFound (detail : String) : MemberError := .problem 404 "Not Found" detail
def conflict (detail : String) : MemberError := .problem 409 "Conflict" detail
def gone (detail : String) : MemberError := .problem 410 "Gone" detail

def uniqueViolation : MemberError := .auth Auth.uniqueViolation

def recordNotFound : MemberError := .auth Auth.recordNotFound

inductive MemberOp
  | auth (o : AuthOp)
  /-- The organization with this id or tenant id. -/
  | getOrganization (reference : String)
  | findMembership (organizationId userId : String)
  /-- The transaction of `createOrganization`. -/
  | createOrganization (input : OrganizationInput) (passwordHash : String)
  /-- The transaction of `createInvite`. -/
  | createInvite (data : InviteData)
  | findInvite (token : String)
  /-- The transaction of `acceptInvite`. -/
  | acceptInvite (invite : Invite) (userId : Option String) (acceptedAt : Int)
  /-- The transaction of `revokeInvite`. -/
  | revokeInvite (inviteId : Nat) (tenantId : String) (revokedAt : Int)
  /-- The transaction of `updateMemberRole`. -/
  | updateMemberRole (memberId : Nat) (organizationId : String) (role : Role) (tenantId : String)
  /-- The transaction of `removeMember`. -/
  | removeMember (memberId : Nat) (organizationId tenantId : String)
  | setRole (organizationId userId : String) (role : Role)
  /-- The transaction of `revokeUserAccess`. -/
  | revokeAccess (organizationId userId : String) (revokedAt : Int)
  /-- `cancelBillingForOrganization`: whether a subscription was cancelled. -/
  | cancelBilling (organizationId : String)
  /-- The transaction of `deleteAccountAndPersonalData`. -/
  | deletePersonalData (organizationId userId anonymizedEmail passwordHash : String) (now : Int)

def MemberOp.Result : MemberOp → Type
  | .auth o => o.Result
  | .getOrganization _ => Option Organization
  | .findMembership .. => Option Membership
  | .createOrganization .. => Membership
  | .createInvite _ => Invite
  | .findInvite _ => Option Invite
  | .acceptInvite .. => Membership
  | .revokeInvite .. => Unit
  | .updateMemberRole .. => Unit
  | .removeMember .. => Unit
  | .setRole .. => Unit
  | .revokeAccess .. => Unit
  | .cancelBilling _ => Bool
  | .deletePersonalData .. => Unit

abbrev MemberIface : Iface where
  Op := MemberOp
  Res := MemberOp.Result
  Err := MemberError

/-- An error of the authentication service, seen by its own code. -/
def MemberError.toAuth : MemberError → AuthError
  | .auth e => e
  | .problem _ _ detail => .message detail

def asMember : Embedding AuthIface MemberIface where
  op := .auth
  answer _ := Except.mapError MemberError.toAuth
  err := .auth

def await (o : MemberOp) : Prog MemberIface o.Result := Prog.perform (I := MemberIface) o

/-! ## The database -/

/-- What the outside decides about one operation. -/
structure Choice extends Auth.Choice where
  /-- The ids of a new organization and its tenant, and of a new user. -/
  newOrganizationId : String := ""
  newTenantId : String := ""
  newUserId : String := ""
  canceled : Bool := false

def Membership.isOf (m : Membership) (organizationId userId : String) : Bool :=
  m.organizationId = organizationId ∧ m.userId = userId

def InviteData.row (data : InviteData) (id : Nat) : Invite where
  id
  tenantId := data.tenantId
  organizationId := data.organizationId
  email := data.email
  token := data.token
  role := data.role
  invitedByUserId := data.invitedByUserId
  expiresAt := data.expiresAt

namespace Store

variable (store : Store)

/-- What the authentication service sees. -/
def seen : Auth.Store :=
  { store.auth with
    memberships := store.memberships.map fun m =>
      { tenantId := m.tenantId, organizationId := m.organizationId, userId := m.userId,
        active := decide (m.status = .ACTIVE) } }

def membership (organizationId userId : String) : Option Membership :=
  store.memberships.find? (·.isOf organizationId userId)

def setMemberships (p : Membership → Bool) (f : Membership → Membership) : Store :=
  { store with memberships := store.memberships.map fun m => if p m then f m else m }

/-- The id of the new user is taken by no user and in no membership. -/
def isNewUser (choice : Choice) : Bool :=
  (store.auth.users.get (.id choice.newUserId)).isNone &&
  store.memberships.all (·.userId ≠ choice.newUserId)

/-- The ids of the new organization, its tenant and its owner are not taken. -/
def isNew (choice : Choice) : Bool :=
  (store.auth.organizations.all fun o =>
    [o.id, o.tenantId].all fun id =>
      id ≠ choice.newOrganizationId ∧ id ≠ choice.newTenantId) &&
  choice.newOrganizationId ≠ choice.newTenantId && store.isNewUser choice

/-- Revokes what the user has in the organization: sessions, keys and the membership. -/
def revokeAll (organizationId userId : String) (revokedAt : Int) : Store :=
  { store with
    auth := (store.auth.updateSessions
      (fun s => s.isOf organizationId userId && s.revokedAt.isNone) revokedAt).updateApiKeys
        (·.isOf organizationId userId) revokedAt
    memberships := store.memberships.map fun m =>
      if m.isOf organizationId userId then { m with status := .REVOKED } else m }

/-- The user that accepts an invite: the named one, if there is one, or the one with the email
of the invite, who is created if need be. -/
def invitedUser (choice : Choice) (invite : Invite) (userId : Option String) :
    Option (String × Auth.Store) :=
  match (Auth.given userId).bind fun id => store.auth.users.get (.id id) with
  | some user => some (user.id, store.auth)
  | none =>
      match store.auth.users.get (.email invite.email) with
      | some user => some (user.id, store.auth)
      | none =>
          (store.auth.users.insert {
            id := choice.newUserId, email := invite.email, passwordHash := "" }).map fun users =>
              (choice.newUserId, { store.auth with users })

/-- The membership after an accepted invite: a new one, or the one that is there with the role of
the invite. -/
def upsertMembership (invite : Invite) (userId : String) : Membership × List Membership × Nat :=
  match store.membership invite.organizationId userId with
  | some m =>
      let accepted (m : Membership) : Membership :=
        { m with role := invite.role, status := .ACTIVE, tenantId := invite.tenantId }
      (accepted m, store.memberships.map fun m =>
        if m.isOf invite.organizationId userId then accepted m else m, store.auth.ids)
  | none =>
      let m : Membership := {
        id := store.auth.ids
        tenantId := invite.tenantId
        organizationId := invite.organizationId
        userId
        role := invite.role }
      (m, store.memberships ++ [m], store.auth.ids + 1)

/-- The user's data after the deletion of the account. -/
def forget (user : User) (anonymizedEmail passwordHash : String) (now : Int) : User :=
  { user with
    email := anonymizedEmail
    mfaEnabled := false
    mfaSecret := none
    passwordHash
    status := .SUSPENDED
    suspendedAt := some now }

/-- The result of an operation that does not fail by `fault`. -/
def perform (choice : Choice) : (o : MemberOp) → Option (MemberIface.Answer o × Store)
  | .auth o =>
      let (answer, auth) := store.seen.handle o choice.toChoice
      some (answer.mapError .auth, { store with auth })
  | .getOrganization reference =>
      some (.ok (store.auth.organizations.find? fun o =>
        o.id = reference ∨ o.tenantId = reference), store)
  | .findMembership organizationId userId =>
      some (.ok (store.membership organizationId userId), store)
  | .createOrganization input passwordHash =>
      if store.isNew choice then
        let user : User := { id := choice.newUserId, email := input.adminEmail, passwordHash }
        let m : Membership := {
          id := store.auth.ids
          tenantId := choice.newTenantId
          organizationId := choice.newOrganizationId
          userId := choice.newUserId
          role := .OWNER }
        match store.auth.users.insert user, store.auth.organizations.any (·.slug = input.slug) with
        | some users, false => some (.ok m, {
            auth := { store.auth with
              ids := store.auth.ids + 1
              organizations := store.auth.organizations ++
                [⟨choice.newOrganizationId, choice.newTenantId, input.slug⟩]
              users }
            memberships := store.memberships ++ [m]
            invites := store.invites })
        | _, _ => some (.error uniqueViolation, store)
      else none
  | .createInvite data =>
      if store.auth.organizations.any (fun o =>
          o.id = data.organizationId ∧ o.tenantId = data.tenantId) then
        if store.invites.any (·.token = data.token) then some (.error uniqueViolation, store)
        else some (.ok (data.row store.auth.ids), { store with
          auth := { store.auth with ids := store.auth.ids + 1 }
          invites := store.invites ++ [data.row store.auth.ids] })
      else some (.error (notFound "Organization not found for the active tenant."), store)
  | .findInvite token => some (.ok (store.invites.find? (·.token = token)), store)
  | .acceptInvite invite userId acceptedAt =>
      if store.isNewUser choice then
        match store.invitedUser choice invite userId with
        | none => some (.error uniqueViolation, store)
        | some (userId, auth) =>
            let (m, memberships, ids) := store.upsertMembership invite userId
            if store.invites.any (·.id = invite.id) then some (.ok m, {
              auth := { auth with ids }
              memberships
              invites := store.invites.map fun i => if i.id = invite.id then
                { i with acceptedAt := some acceptedAt, status := .ACCEPTED } else i })
            else some (.error recordNotFound, store)
      else none
  | .revokeInvite inviteId tenantId revokedAt =>
      match store.invites.find? fun i => i.id = inviteId ∧ i.tenantId = tenantId with
      | none => some (.error (notFound "Invite not found for the active tenant."), store)
      | some invite => some (.ok (), { store with
          invites := store.invites.map fun i => if i.id = invite.id then
            { i with revokedAt := some revokedAt, status := .REVOKED } else i })
  | .updateMemberRole memberId organizationId role tenantId =>
      if store.auth.organizations.any (fun o => o.id = organizationId ∧ o.tenantId = tenantId) then
        match store.memberships.find? fun m =>
            m.id = memberId ∧ m.organizationId = organizationId ∧ m.tenantId = tenantId with
        | none => some (.error (notFound "Member not found for the active tenant."), store)
        | some m => some (.ok (), store.setMemberships (·.isOf m.organizationId m.userId)
            fun m => { m with role })
      else some (.error (notFound
        "The requested organization was not found for the active tenant."), store)
  | .removeMember memberId organizationId tenantId =>
      if store.auth.organizations.any (fun o => o.id = organizationId ∧ o.tenantId = tenantId) then
        match store.memberships.find? fun m =>
            m.id = memberId ∧ m.organizationId = organizationId ∧ m.tenantId = tenantId with
        | none => some (.error (notFound "Member not found for the active tenant."), store)
        | some m => some (.ok (), { store with
            memberships := store.memberships.filter fun m' => !m'.isOf m.organizationId m.userId })
      else some (.error (notFound
        "The requested organization was not found for the active tenant."), store)
  | .setRole organizationId userId role =>
      if (store.membership organizationId userId).isSome then
        some (.ok (), store.setMemberships (·.isOf organizationId userId)
          fun m => { m with role })
      else some (.error recordNotFound, store)
  | .revokeAccess organizationId userId revokedAt =>
      if (store.membership organizationId userId).isSome then
        some (.ok (), store.revokeAll organizationId userId revokedAt)
      else some (.error recordNotFound, store)
  | .cancelBilling _ => some (.ok choice.canceled, store)
  | .deletePersonalData organizationId userId anonymizedEmail passwordHash now =>
      match store.auth.users.get (.id userId) with
      | none => some (.error recordNotFound, store)
      | some user =>
          let revoked := store.revokeAll organizationId userId now
          match (revoked.auth.users.remove (·.id = userId)).insert
              (forget user anonymizedEmail passwordHash now) with
          | none => some (.error uniqueViolation, store)
          | some users => some (.ok (), { revoked with
              auth := { revoked.auth with
                users
                challenges := revoked.auth.challenges.remove (·.userId = userId)
                recoveryCodes := revoked.auth.recoveryCodes.remove (·.userId = userId) } })

def handle (o : MemberOp) (choice : Choice) (store : Store) :
    Option (MemberIface.Answer o × Store) :=
  match o, choice.fault with
  | .auth o, _ => store.perform choice (.auth o)
  | _, some e => some (.error (.auth e), store)
  | o, none => store.perform choice o

end Store

end Members
