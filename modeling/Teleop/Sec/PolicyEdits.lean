import Mathlib.Data.List.Induction
import Teleop.Sec.Rbac

/-!
# Runs of policy edits

A policy starts with the defaults and is edited role by role.  A grant is documented as a
replacement but adds to what the role holds, so the answer of a policy depends on every list
given to the role since its last revocation, not on the latest one.
-/

namespace Teleop.Sec

/-- A call that edits a policy. -/
inductive PolicyEdit where
  | grant (role : Role) (perms : List Permission)
  | revokeAll (role : Role)
  deriving DecidableEq, Repr

namespace PolicyEdit

def role : PolicyEdit → Role
  | .grant role _ => role
  | .revokeAll role => role

/-- What the role is meant to hold after the edit. -/
def perms : PolicyEdit → List Permission
  | .grant _ perms => perms
  | .revokeAll _ => []

/-- The lists given to the role since its last revocation, with this edit. -/
def record : PolicyEdit → List (List Permission) → List (List Permission)
  | .grant _ perms, lists => lists ++ [perms]
  | .revokeAll _, _ => []

end PolicyEdit

namespace Policy

def edit (policy : Policy) : PolicyEdit → Policy
  | .grant role perms => policy.grant role perms
  | .revokeAll role => policy.revokeAll role

/-- The policy after a sequence of edits of the default one. -/
def ofEdits (edits : List PolicyEdit) : Policy := edits.foldl edit .default

/-- The set that the default policy lists for a role. -/
def defaultPerms (role : Role) : List Permission := (default.grants role).getD []

/-- What a role is meant to hold: the list of its most recent grant, nothing if it was revoked
after that, and its default set if it was never edited. -/
def intended (role : Role) (edits : List PolicyEdit) : List Permission :=
  match edits.reverse.find? (fun edit => edit.role = role) with
  | none => defaultPerms role
  | some edit => edit.perms

/-- The lists given to a role since its last revocation, in order; the first is its default set
as long as it was never revoked. -/
def given (role : Role) (edits : List PolicyEdit) : List (List Permission) :=
  edits.foldl (fun lists edit => if edit.role = role then edit.record lists else lists)
    [defaultPerms role]

section Steps

variable (role : Role) (edits : List PolicyEdit) (edit : PolicyEdit)

theorem ofEdits_append : ofEdits (edits ++ [edit]) = (ofEdits edits).edit edit := by
  unfold ofEdits
  rw [List.foldl_append]
  rfl

theorem given_append :
    given role (edits ++ [edit]) =
      if edit.role = role then edit.record (given role edits) else given role edits := by
  unfold given
  rw [List.foldl_append]
  rfl

theorem intended_append :
    intended role (edits ++ [edit]) =
      if edit.role = role then edit.perms else intended role edits := by
  unfold intended
  rw [List.reverse_append, List.reverse_singleton, List.singleton_append, List.find?_cons]
  by_cases same : edit.role = role
  · rw [decide_eq_true same, if_pos same]
  · rw [decide_eq_false same, if_neg same]

end Steps

theorem roleHas_default (role : Role) (perm : Permission) :
    default.roleHas role perm = true ↔ perm ∈ defaultPerms role := by
  unfold roleHas defaultPerms
  cases held : default.grants role with
  | none => simp
  | some perms => simp

/-- A role holds what any list given to it since its last revocation has. -/
theorem roleHas_ofEdits_iff (edits : List PolicyEdit) (role : Role) (perm : Permission) :
    (ofEdits edits).roleHas role perm = true ↔ ∃ perms ∈ given role edits, perm ∈ perms := by
  induction edits using List.reverseRecOn with
  | nil => simpa [given, ofEdits] using roleHas_default role perm
  | append_singleton edits edit inductionHypothesis =>
      rw [ofEdits_append, given_append]
      cases edit with
      | grant other perms =>
          refine (roleHas_grant _ _ _ _ _).trans ?_
          rw [inductionHypothesis]
          by_cases same : other = role
          · subst same
            simp [PolicyEdit.role, PolicyEdit.record, or_and_right, exists_or]
          · simp [PolicyEdit.role, same, Ne.symm same]
      | revokeAll other =>
          refine (roleHas_revokeAll _ _ _ _).trans ?_
          rw [inductionHypothesis]
          by_cases same : other = role
          · simp [PolicyEdit.role, PolicyEdit.record, same]
          · simp [PolicyEdit.role, same, Ne.symm same]

/-- The list a role is meant to have is the last one given to it. -/
theorem intended_eq_getLast (edits : List PolicyEdit) (role : Role) :
    intended role edits = (given role edits).getLast?.getD [] := by
  induction edits using List.reverseRecOn with
  | nil => rfl
  | append_singleton edits edit inductionHypothesis =>
      rw [intended_append, given_append, inductionHypothesis]
      by_cases same : edit.role = role
      · rw [if_pos same, if_pos same]
        cases edit with
        | grant other perms => simp [PolicyEdit.perms, PolicyEdit.record]
        | revokeAll other => rfl
      · rw [if_neg same, if_neg same]

/-- So what a role is meant to hold it does hold. -/
theorem roleHas_of_mem_intended {edits : List PolicyEdit} {role : Role} {perm : Permission}
    (meant : perm ∈ intended role edits) : (ofEdits edits).roleHas role perm = true := by
  rw [intended_eq_getLast] at meant
  cases last : (given role edits).getLast? with
  | none =>
      rw [last] at meant
      cases meant
  | some perms =>
      rw [last] at meant
      exact (roleHas_ofEdits_iff edits role perm).mpr ⟨perms, List.mem_of_getLast? last, meant⟩

theorem authorize_single (policy : Policy) {principal : Principal} {role : Role}
    (authenticated : principal.authenticated = true) (only : principal.roles = [role])
    (perm : Permission) : policy.authorize principal perm = policy.roleHas role perm := by
  simp [authorize, authenticated, only]

/-- The edits take effect as documented: role and principal hold what is meant. -/
def EditsTakeEffect (edits : List PolicyEdit) (role : Role) (perm : Permission) : Prop :=
  ((ofEdits edits).roleHas role perm = true ↔ perm ∈ intended role edits) ∧
    ∀ principal : Principal, principal.authenticated = true → principal.roles = [role] →
      ((ofEdits edits).authorize principal perm = true ↔ perm ∈ intended role edits)

/-- They do exactly if no list before the last one has a permission that the last one leaves
out. -/
theorem editsTakeEffect_iff (edits : List PolicyEdit) (role : Role) (perm : Permission) :
    EditsTakeEffect edits role perm ↔
      ∀ perms ∈ given role edits, perm ∈ perms → perm ∈ intended role edits := by
  constructor
  · rintro ⟨roles, -⟩ perms listed held
    exact roles.mp ((roleHas_ofEdits_iff edits role perm).mpr ⟨perms, listed, held⟩)
  · intro kept
    have roles : (ofEdits edits).roleHas role perm = true ↔ perm ∈ intended role edits := by
      refine ⟨fun holds => ?_, roleHas_of_mem_intended⟩
      obtain ⟨perms, listed, held⟩ := (roleHas_ofEdits_iff edits role perm).mp holds
      exact kept perms listed held
    refine ⟨roles, fun principal authenticated only => ?_⟩
    rw [authorize_single _ authenticated only]
    exact roles

/-- An operator narrowed to viewing still sends control commands. -/
theorem not_editsTakeEffect_narrowed :
    ¬ EditsTakeEffect [.grant .operator [.viewTelemetry]] .operator .sendControl := by
  rintro ⟨roles, -⟩
  have holds :
      (ofEdits [.grant .operator [.viewTelemetry]]).roleHas .operator .sendControl = true := by
    decide
  exact absurd (roles.mp holds) (by decide)

end Policy

end Teleop.Sec
