import Teleop.Sec.Identity

/-!
# Roles, permissions and the zero-trust broker

A verified attestation yields a principal that carries the role enrolled for its unit, and
a policy says which permissions a role holds.  Named tools are mapped to the permission
they need.
-/

namespace Teleop.Sec

inductive Permission where
  | viewTelemetry
  | sendControl
  | engageAutonomy
  | takeManualControl
  | manageFleet
  | auditLog
  deriving DecidableEq, Repr

/-- Static mapping from roles to permissions; a role without an entry holds none. -/
structure Policy where
  grants : Role → Option (List Permission)

/-- An authenticated subject. -/
structure Principal where
  id : String
  roles : List Role
  deviceId : UInt64
  authenticated : Bool

namespace Policy

/-- Nobody gets more than explicitly listed. -/
def default : Policy where
  grants
    | .guest => some []
    | .observer => some [.viewTelemetry, .auditLog]
    | .operator => some [.viewTelemetry, .sendControl, .engageAutonomy, .takeManualControl]
    | .aiAgent => some [.viewTelemetry, .sendControl, .engageAutonomy]
    | .admin =>
        some [.viewTelemetry, .sendControl, .engageAutonomy, .takeManualControl, .manageFleet,
          .auditLog]

/-- Adds permissions to a role. -/
def grant (policy : Policy) (role : Role) (perms : List Permission) : Policy where
  grants := Function.update policy.grants role (some ((policy.grants role).getD [] ++ perms))

/-- Revokes every permission of a role that has an entry. -/
def revokeAll (policy : Policy) (role : Role) : Policy where
  grants := Function.update policy.grants role ((policy.grants role).map fun _ => [])

def roleHas (policy : Policy) (role : Role) (perm : Permission) : Bool :=
  match policy.grants role with
  | none => false
  | some perms => perms.contains perm

/-- An authenticated principal is authorized if one of its roles holds the permission. -/
def authorize (policy : Policy) (principal : Principal) (perm : Permission) : Bool :=
  principal.authenticated && principal.roles.any fun role => policy.roleHas role perm

theorem roleHas_grant (policy : Policy) (role other : Role) (perms : List Permission)
    (perm : Permission) :
    (policy.grant role perms).roleHas other perm = true ↔
      policy.roleHas other perm = true ∨ (other = role ∧ perm ∈ perms) := by
  by_cases same : other = role
  · subst same
    cases held : policy.grants other with
    | none => simp [roleHas, grant, held]
    | some before => simp [roleHas, grant, held]
  · simp [roleHas, grant, same]

theorem roleHas_revokeAll (policy : Policy) (role other : Role) (perm : Permission) :
    (policy.revokeAll role).roleHas other perm = true ↔
      policy.roleHas other perm = true ∧ other ≠ role := by
  by_cases same : other = role
  · subst same
    cases held : policy.grants other with
    | none => simp [roleHas, revokeAll, held]
    | some before => simp [roleHas, revokeAll, held]
  · simp [roleHas, revokeAll, same]

end Policy

/-- The permission a dispatch tool needs; unknown tools are always denied. -/
def dispatchPermission (tool : String) : Option Permission :=
  if tool = "list_units" then some .viewTelemetry
  else if tool = "get_telemetry" then some .viewTelemetry
  else if tool = "assign_unit" then some .manageFleet
  else if tool = "engage_autonomy" then some .engageAutonomy
  else if tool = "take_manual_control" then some .takeManualControl
  else if tool = "send_control" then some .sendControl
  else if tool = "manage_fleet" then some .manageFleet
  else if tool = "read_audit" then some .auditLog
  else none

def authorizeDispatch (policy : Policy) (principal : Principal) (tool : String) : Bool :=
  match dispatchPermission tool with
  | none => false
  | some perm => policy.authorize principal perm

/-- Keys and roles are enrolled together, so every key comes with a role. -/
def TrustStore.Paired (store : TrustStore) : Prop :=
  ∀ unitId key, store.keys unitId = some key → (store.roles unitId).isSome

theorem TrustStore.paired_empty : TrustStore.empty.Paired := nofun

theorem TrustStore.Paired.enroll {store : TrustStore} (paired : store.Paired) (unitId : UInt64)
    (signingPub : Vector UInt8 32) (role : Role) :
    (store.enroll unitId signingPub role).Paired := by
  intro other key held
  simp only [TrustStore.enroll, Function.update_apply] at held ⊢
  split at held
  · rename_i same
    rw [if_pos same]
    rfl
  · rename_i different
    rw [if_neg different]
    exact paired other key held

/-- Trust store and policy. -/
structure ZeroTrustBroker where
  trust : TrustStore
  policy : Policy
  enrolled : trust.Paired

namespace ZeroTrustBroker

variable {ed : Ed25519}

/-- A broker with the default policy. -/
def withTrust (trust : TrustStore) (paired : trust.Paired) : ZeroTrustBroker where
  trust := trust
  policy := .default
  enrolled := paired

/-- Turns a verified attestation into a principal with the enrolled role. -/
def authenticate (broker : ZeroTrustBroker) (attestation : Attestation ed) :
    Except SecError Principal :=
  match broker.trust.verify attestation with
  | .error failure => .error failure
  | .ok role =>
      .ok {
        id := "unit-" ++ toString attestation.unitId
        roles := [role]
        deviceId := attestation.unitId
        authenticated := true }

def authorizeTool (broker : ZeroTrustBroker) (principal : Principal) (tool : String) : Bool :=
  authorizeDispatch broker.policy principal tool

/-- The attestation verifies under the key enrolled for its unit. -/
def Genuine (broker : ZeroTrustBroker) (attestation : Attestation ed) : Prop :=
  broker.trust.keys attestation.unitId = some attestation.signingPub ∧
    attestation.verify = true

/-- The role enrolled for a unit holds a permission. -/
def Holds (broker : ZeroTrustBroker) (unitId : UInt64) (perm : Permission) : Prop :=
  ∃ role, broker.trust.roles unitId = some role ∧ broker.policy.roleHas role perm = true

/-- The principal of a genuine attestation carries the enrolled role and nothing else. -/
theorem authenticate_eq_ok {broker : ZeroTrustBroker} {attestation : Attestation ed}
    {principal : Principal} (accepted : broker.authenticate attestation = .ok principal) :
    broker.Genuine attestation ∧ ∃ role,
      broker.trust.roles attestation.unitId = some role ∧
      principal = ⟨"unit-" ++ toString attestation.unitId, [role], attestation.unitId, true⟩ := by
  unfold authenticate at accepted
  split at accepted
  · cases accepted
  · rename_i role verified
    have genuine := TrustStore.verify_eq_ok_iff.mp ⟨role, verified⟩
    obtain ⟨enrolled, held⟩ := Option.isSome_iff_exists.mp (broker.enrolled _ _ genuine.1)
    refine ⟨genuine, enrolled, held, ?_⟩
    have same : role = enrolled := by
      simpa [TrustStore.verify, genuine.1, genuine.2, held] using verified.symm
    subst same
    exact (Except.ok.inj accepted).symm

theorem authenticate_of_genuine {broker : ZeroTrustBroker} {attestation : Attestation ed}
    (genuine : broker.Genuine attestation) :
    ∃ principal, broker.authenticate attestation = .ok principal := by
  obtain ⟨role, verified⟩ := TrustStore.verify_eq_ok_iff.mpr genuine
  simp [authenticate, verified]

/-- A verified principal may use a tool exactly if the role enrolled for its unit holds the
permission of the tool. -/
theorem authorizeTool_iff {broker : ZeroTrustBroker} {attestation : Attestation ed}
    {principal : Principal} (accepted : broker.authenticate attestation = .ok principal)
    (tool : String) :
    broker.authorizeTool principal tool = true ↔
      ∃ perm, dispatchPermission tool = some perm ∧ broker.Holds attestation.unitId perm := by
  obtain ⟨-, role, held, rfl⟩ := authenticate_eq_ok accepted
  unfold authorizeTool authorizeDispatch Holds
  cases dispatchPermission tool with
  | none => simp
  | some perm => simp [Policy.authorize, held]

/-- Authentication reads the unit, the key and whether the signature verifies. -/
theorem authenticate_congr (broker : ZeroTrustBroker) {attestation other : Attestation ed}
    (unitId : attestation.unitId = other.unitId)
    (signingPub : attestation.signingPub = other.signingPub)
    (verified : attestation.verify = other.verify) :
    broker.authenticate attestation = broker.authenticate other := by
  unfold authenticate TrustStore.verify
  rw [unitId, signingPub, verified]

end ZeroTrustBroker

end Teleop.Sec
