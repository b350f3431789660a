import Mathlib

/-!
# Rules of role-based access control

How the API server matches a request against a rule.
-/

namespace Rbac

structure PolicyRule where
  verbs : List String
  apiGroups : List String
  resources : List String
  resourceNames : List String
  deriving DecidableEq

namespace PolicyRule

variable (r : PolicyRule)

def MatchesVerb (verb : String) : Prop := "*" ∈ r.verbs ∨ verb ∈ r.verbs

def MatchesGroup (group : String) : Prop := "*" ∈ r.apiGroups ∨ group ∈ r.apiGroups

/-- A resource without a subresource. -/
def MatchesResource (resource : String) : Prop := "*" ∈ r.resources ∨ resource ∈ r.resources

/-- A subresource of a resource. -/
def MatchesSubresource (resource subresource : String) : Prop :=
  "*" ∈ r.resources ∨ resource ++ "/" ++ subresource ∈ r.resources ∨
    "*/" ++ subresource ∈ r.resources

/-- Whether the rule grants a verb on something. -/
def Grants (verb : String) : Prop := r.MatchesVerb verb ∧ r.apiGroups ≠ [] ∧ r.resources ≠ []

/-- Whether the rule grants a verb on a resource. -/
def GrantsOn (verb group resource : String) : Prop :=
  r.MatchesVerb verb ∧ r.MatchesGroup group ∧ r.MatchesResource resource

/-- Whether the rule grants a verb on a subresource. -/
def GrantsOnSub (verb group resource subresource : String) : Prop :=
  r.MatchesVerb verb ∧ r.MatchesGroup group ∧ r.MatchesSubresource resource subresource

instance {verb : String} : Decidable (r.MatchesVerb verb) := inferInstanceAs (Decidable (_ ∨ _))

instance {group : String} : Decidable (r.MatchesGroup group) := inferInstanceAs (Decidable (_ ∨ _))

instance {resource subresource : String} : Decidable (r.MatchesSubresource resource subresource) :=
  inferInstanceAs (Decidable (_ ∨ _))

instance {verb : String} : Decidable (r.Grants verb) := inferInstanceAs (Decidable (_ ∧ _))

end PolicyRule

end Rbac
