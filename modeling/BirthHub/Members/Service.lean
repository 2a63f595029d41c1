import BirthHub.Members.Model

/-!
# Requests on organizations and their members

The routes that create organizations and invite, promote, suspend and remove users, as programs
over the operations of `Members.Model`, with the checks that stand before each handler:
authentication, the choice of the active tenant, and the role of the actor. What the other routes
do with sessions and keys is any program of the authentication service.
-/

namespace Members

open Data Effect
open Auth (AuthIface AuthError AuthenticatedContext Client Crypto ApiConfig given)

/-! ## Authentication and authorization -/

/-- What a request carries: the tokens, and the header `x-active-tenant`. -/
structure Credentials where
  apiKeyToken : Option String := none
  sessionToken : Option String := none
  activeTenant : Option String := none

/-- The context of a request with a session. -/
structure Context where
  organizationId : String
  sessionId : Nat
  tenantId : String
  userId : String
deriving DecidableEq

def Role.name : Role → String
  | .SUPER_ADMIN => "SUPER_ADMIN"
  | .OWNER => "OWNER"
  | .ADMIN => "ADMIN"
  | .MEMBER => "MEMBER"
  | .READONLY => "READONLY"

/-- The role of an active membership. -/
def Membership.activeRole (membership : Option Membership) : Option Role :=
  (membership.filter (·.status = .ACTIVE)).map (·.role)

def getRoleForUser (organizationId userId : String) : Prog MemberIface (Option Role) := do
  let membership ← await (.findMembership organizationId userId)
  pure (Membership.activeRole membership)

def assertRole (minimumRole : Role) (organizationId userId : String) : Prog MemberIface Bool := do
  let role ← getRoleForUser organizationId userId
  match role with
  | none => pure false
  | some role => pure (decide (rolePriority minimumRole ≤ rolePriority role))

def RequireRole (minimumRole : Role) (context : Context) : Prog MemberIface Unit := do
  let hasRole ← assertRole minimumRole context.organizationId context.userId
  if hasRole then pure ()
  else .throw (forbidden s!"Role '{minimumRole.name}' is required for this operation.")

/-- `requireAuthenticatedSession`. A context with a session id is one of a session. -/
def requireAuthenticatedSession : Option AuthenticatedContext → Prog MemberIface Context
  | some ⟨_, organizationId, some sessionId, tenantId, userId⟩ =>
      if userId = "" ∨ organizationId = "" ∨ tenantId = "" then
        .throw (unauthorized "A valid authenticated session is required.")
      else pure { organizationId, sessionId, tenantId, userId }
  | _ => .throw (unauthorized "A valid authenticated session is required.")

/-- The context of the tenant that the header names, if there is one. -/
def resolveTenantFromRequest (activeTenant : Option String)
    (context : Option AuthenticatedContext) : Prog MemberIface (Option AuthenticatedContext) :=
  match given activeTenant, context with
  | none, context => pure context
  | some tenantReference, some ⟨apiKeyId, _, some sessionId, _, userId⟩ => do
      let organization ← await (.auth (.findOrganization tenantReference))
      match organization with
      | none => .throw (notFound "The requested active tenant was not found.")
      | some organization => do
          let role ← getRoleForUser organization.id userId
          if role.isNone then .throw (forbidden
            "The authenticated user does not belong to the requested active tenant.")
          else pure (some
            ⟨apiKeyId, organization.id, some sessionId, organization.tenantId, userId⟩)
  | some _, _ => .throw
      (unauthorized "An authenticated session is required to switch the active tenant.")

section Service

variable (crypto : Crypto) (config : ApiConfig)

def authenticateRequest (credentials : Credentials) :
    Prog MemberIface (Option AuthenticatedContext) :=
  (Auth.authenticateRequest crypto credentials.apiKeyToken credentials.sessionToken).embed asMember

/-- The middleware before the handler of a route that needs a session. -/
def signedIn (credentials : Credentials) : Prog MemberIface Context := do
  let authenticated ← authenticateRequest crypto credentials
  let context ← resolveTenantFromRequest credentials.activeTenant authenticated
  requireAuthenticatedSession context

/-- The middleware of a route that also needs a role. -/
def signedInAs (minimumRole : Role) (credentials : Credentials) : Prog MemberIface Context := do
  let context ← signedIn crypto credentials
  RequireRole minimumRole context
  pure context

/-! ## Organizations and members -/

/-- A violated unique value is taken to be the slug. -/
def createOrganization (input : OrganizationInput) : Prog MemberIface Membership := do
  let salt : String ← await (.auth .randomToken)
  (await (.createOrganization input
    (crypto.hashPassword input.adminPassword salt config.AUTH_BCRYPT_SALT_ROUNDS))).tryCatch
      fun e => if e = uniqueViolation then
          .throw (conflict s!"Organization slug '{input.slug}' is already in use.")
        else .throw e

def updateMember (credentials : Credentials) (organizationId : String) (memberId : Nat)
    (role : Role) : Prog MemberIface Unit := do
  let context ← signedInAs crypto .OWNER credentials
  await (.updateMemberRole memberId organizationId role context.tenantId)

def removeMember (credentials : Credentials) (organizationId : String) (memberId : Nat) :
    Prog MemberIface Unit := do
  let context ← signedInAs crypto .OWNER credentials
  await (.removeMember memberId organizationId context.tenantId)

/-! ## Invites -/

structure InviteInput where
  email : String
  expiresAt : Option Int := none
  role : AssignableRole := .MEMBER

def resolveDefaultExpiry (expiresAt : Option Int) : Prog MemberIface Int :=
  match expiresAt with
  | some expiresAt => pure expiresAt
  | none => do
      let now : Int ← await (.auth .now)
      pure (now + 1000 * 60 * 60 * 24 * 7)

def createInvite (credentials : Credentials) (input : InviteInput) : Prog MemberIface Invite := do
  let context ← signedInAs crypto .ADMIN credentials
  let expiresAt ← resolveDefaultExpiry input.expiresAt
  let token : String ← await (.auth .randomToken)
  await (.createInvite {
    email := input.email
    expiresAt
    invitedByUserId := some context.userId
    organizationId := context.organizationId
    role := input.role.role
    tenantId := context.tenantId
    token })

def acceptInvite (token : String) (userId : Option String) : Prog MemberIface Membership := do
  let invite ← await (.findInvite token)
  match invite.filter (·.status = .PENDING) with
  | none => .throw (notFound "Invite token is invalid or no longer active.")
  | some invite => do
      let now : Int ← await (.auth .now)
      if invite.expiresAt < now then .throw (gone "Invite token has expired.")
      else do
        let acceptedAt : Int ← await (.auth .now)
        await (.acceptInvite invite userId acceptedAt)

def revokeInvite (credentials : Credentials) (inviteId : Nat) : Prog MemberIface Unit := do
  let context ← signedInAs crypto .ADMIN credentials
  let revokedAt : Int ← await (.auth .now)
  await (.revokeInvite inviteId context.tenantId revokedAt)

/-! ## Users -/

def resolveOrganizationContext (organizationReference : String) :
    Prog MemberIface Auth.Organization := do
  let organization ← await (.getOrganization organizationReference)
  match organization with
  | none => .throw (notFound "Organization context was not found.")
  | some organization => pure organization

def assertManageableTarget (actorUserId : String) (nextRole : Option Role)
    (organizationId targetUserId : String) : Prog MemberIface Role :=
  if actorUserId = targetUserId then
    .throw (badRequest "Self-management is not allowed on this endpoint.")
  else do
    let actorRole ← getRoleForUser organizationId actorUserId
    let targetRole ← getRoleForUser organizationId targetUserId
    match actorRole, targetRole with
    | some actorRole, some targetRole =>
        if !canManageRole actorRole targetRole then
          .throw (forbidden "Your role cannot manage the selected user.")
        else if nextRole.any fun role => !canManageRole actorRole role then
          .throw (forbidden "Your role cannot assign the requested target role.")
        else pure targetRole
    | _, _ => .throw (notFound "Membership context not found for actor or target user.")

/-- What the routes of a user do first: the organization, once the target may be managed. -/
def manageUser (credentials : Credentials) (nextRole : Option Role) (targetUserId : String) :
    Prog MemberIface Auth.Organization := do
  let context ← signedInAs crypto .ADMIN credentials
  let organization ← resolveOrganizationContext context.tenantId
  let _ ← assertManageableTarget context.userId nextRole organization.id targetUserId
  pure organization

def updateUserRoleWithAudit (organizationId targetUserId : String) (role : Role) :
    Prog MemberIface Unit := do
  let before ← await (.findMembership organizationId targetUserId)
  match before with
  | none => .throw (.auth (.message "MEMBERSHIP_NOT_FOUND"))
  | some _ => do
      await (.setRole organizationId targetUserId role)
      let _ ← await (.auth (.findTenant organizationId))
      await (.auth .createAuditLog)

def handleRoleUpdate (credentials : Credentials) (targetUserId : String) (role : AssignableRole) :
    Prog MemberIface Unit := do
  let organization ← manageUser crypto credentials (some role.role) targetUserId
  updateUserRoleWithAudit organization.id targetUserId role.role

def suspend (credentials : Credentials) (targetUserId : String) : Prog MemberIface Unit := do
  let organization ← manageUser crypto credentials none targetUserId
  (Auth.suspend organization.id targetUserId).embed asMember

def revokeUserAccess (credentials : Credentials) (targetUserId : String) :
    Prog MemberIface Unit := do
  let organization ← manageUser crypto credentials none targetUserId
  let membership ← await (.findMembership organization.id targetUserId)
  match membership with
  | none => .throw (notFound "Membership not found for the selected user.")
  | some _ => do
      let revokedAt : Int ← await (.auth .now)
      await (.revokeAccess organization.id targetUserId revokedAt)

/-! ## Deletion of the account -/

def PRIVACY_DELETE_CONFIRMATION : String := "EXCLUIR MINHA CONTA"

def buildAnonymizedEmail (userId : String) : String :=
  s!"deleted+{userId}@privacy.birthhub360.invalid"

/-- `deleteAccountAndPersonalData` from the user on. -/
def deletePersonalData (organizationId userId : String) : Prog MemberIface Bool := do
  let user ← await (.auth (.findUser userId))
  match user with
  | none => .throw (notFound "User not found for privacy deletion.")
  | some _ => do
      let role ← getRoleForUser organizationId userId
      let canceled : Bool ←
        if role = some .OWNER then await (.cancelBilling organizationId) else pure false
      let password : String ← await (.auth .randomToken)
      let salt : String ← await (.auth .randomToken)
      let now : Int ← await (.auth .now)
      await (.deletePersonalData organizationId userId (buildAnonymizedEmail userId)
        (crypto.hashPassword password salt config.AUTH_BCRYPT_SALT_ROUNDS) now)
      pure canceled

def deleteAccount (credentials : Credentials) (confirmationText : String) :
    Prog MemberIface Bool := do
  let context ← signedIn crypto credentials
  if confirmationText ≠ PRIVACY_DELETE_CONFIRMATION then .throw (badRequest
    s!"Type '{PRIVACY_DELETE_CONFIRMATION}' to confirm account deletion.")
  else do
    let organization ← await (.getOrganization context.organizationId)
    match organization with
    | none => .throw (notFound "Organization not found for privacy deletion.")
    | some organization => deletePersonalData crypto config organization.id context.userId

/-! ## Requests -/

inductive Request
  | createOrganization (input : OrganizationInput)
  | createInvite (credentials : Credentials) (input : InviteInput)
  | acceptInvite (token : String) (userId : Option String)
  | revokeInvite (credentials : Credentials) (inviteId : Nat)
  /-- `PATCH /orgs/:id/members/:memberId`. -/
  | updateMember (credentials : Credentials) (organizationId : String) (memberId : Nat)
      (role : Role)
  /-- `DELETE /orgs/:id/members/:memberId`. -/
  | removeMember (credentials : Credentials) (organizationId : String) (memberId : Nat)
  /-- `PATCH /users/:userId/role`, or `/team/members/:userId/role`. -/
  | updateUserRole (credentials : Credentials) (userId : String) (role : AssignableRole)
  | suspend (credentials : Credentials) (userId : String)
  /-- `DELETE /users/:userId`. -/
  | revokeUserAccess (credentials : Credentials) (userId : String)
  | deleteAccount (credentials : Credentials) (confirmationText : String)
  /-- A request on sessions or keys: whatever it does within the authentication service, where its
  route needs a session with a role, after the middleware. -/
  | auth (program : Prog AuthIface Unit)
  | authAs (minimumRole : Role) (credentials : Credentials)
      (program : Context → Prog AuthIface Unit)

inductive Response
  | invite (invite : Invite)
  | membership (membership : Membership)
  | done
deriving DecidableEq

def serveRequest : Request → Prog MemberIface Response
  | .createOrganization input => do
      let owner ← createOrganization crypto config input
      pure (.membership owner)
  | .createInvite credentials input => do
      let invite ← createInvite crypto credentials input
      pure (.invite invite)
  | .acceptInvite token userId => do
      let membership ← acceptInvite token userId
      pure (.membership membership)
  | .revokeInvite credentials inviteId => do
      revokeInvite crypto credentials inviteId
      pure .done
  | .updateMember credentials organizationId memberId role => do
      updateMember crypto credentials organizationId memberId role
      pure .done
  | .removeMember credentials organizationId memberId => do
      removeMember crypto credentials organizationId memberId
      pure .done
  | .updateUserRole credentials userId role => do
      handleRoleUpdate crypto credentials userId role
      pure .done
  | .suspend credentials userId => do
      suspend crypto credentials userId
      pure .done
  | .revokeUserAccess credentials userId => do
      revokeUserAccess crypto credentials userId
      pure .done
  | .deleteAccount credentials confirmationText => do
      let _ ← deleteAccount crypto config credentials confirmationText
      pure .done
  | .auth program => do
      program.embed asMember
      pure .done
  | .authAs minimumRole credentials program => do
      let context ← signedInAs crypto minimumRole credentials
      (program context).embed asMember
      pure .done

end Service

end Members
