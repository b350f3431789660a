import Mathlib
import WebsiteInfrastructure.Library.Rego

/-!
# The document under review

What the deny rules of every kind read of it.
-/

namespace Policy

open Rego

def tenantNamespaces : List String :=
  ["cloudflare-public", "naranjo-online", "lidersea-com", "obsidian"]

def siteNamespaces : List String := ["naranjo-online", "lidersea-com"]

def chartSourceNamespaces : List String := siteNamespaces ++ ["obsidian"]

section

variable (input : Term)

/-- `input.a.b` -/
def inp (keys : List String) : Ref := Ref.path input keys

def kindIs (kinds : List String) : Bool := holds ((inp input ["kind"]).isIn kinds)

def nameIs (names : List String) : Bool := holds ((inp input ["metadata", "name"]).isIn names)

def namespaceIs (namespaces : List String) : Bool :=
  holds ((inp input ["metadata", "namespace"]).isIn namespaces)

def hasName : Bool := formats [inp input ["metadata", "name"]]

def hasNamespaceAndName : Bool :=
  formats [inp input ["metadata", "namespace"], inp input ["metadata", "name"]]

end

end Policy
