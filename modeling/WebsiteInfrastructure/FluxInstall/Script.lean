import Mathlib
import WebsiteInfrastructure.FluxInstall.Cluster

/-!
# The rollback of an installation

The functions of `install-flux-controllers.sh` that undo an attempt. The ledger and its two
companions are lists here, and of what is printed only the exit status is kept.
-/

namespace FluxInstall

open Interference ShellText PythonText

abbrev Script (α : Type) := Client Request Response α

def kubeGet (entry : Text) : Script Reading := Client.request (Request.get entry)

def kubeDelete (path uid version : Text) : Script Bool :=
  Client.request (Request.delete path uid version)

/-! ## Entries -/

/-- `[[:space:]]` -/
def isSpace (c : Char) : Bool := c ∈ [' ', '\t', '\n', '\x0b', '\x0c', '\r']

/-- `/^---[[:space:]]*$/` -/
def isMarker (line : Text) : Bool :=
  (line.dropPrefix? ['-', '-', '-']).any fun rest => rest.all isSpace

/-- `/^key[[:space:]]/` -/
def hasKey (key line : Text) : Bool :=
  (line.dropPrefix? key).any fun rest => rest.head?.any isSpace

/-- `$2` -/
def secondField (line : Text) : Text :=
  ((line.splitOnP fun c => c = ' ' || c = '\t').filter (· ≠ [])).getD 1 []

/-- The resources of kinds whose name in small letters is not the resource. -/
def resources : List (Text × Text) := [
  (spelled "CustomResourceDefinition" rfl,
    spelled "customresourcedefinition.apiextensions.k8s.io" rfl),
  (spelled "ClusterRole" rfl, spelled "clusterrole.rbac.authorization.k8s.io" rfl),
  (spelled "ClusterRoleBinding" rfl, spelled "clusterrolebinding.rbac.authorization.k8s.io" rfl),
  (spelled "NetworkPolicy" rfl, spelled "networkpolicy.networking.k8s.io" rfl),
  (spelled "Deployment" rfl, spelled "deployment.apps" rfl)]

/-- `resource`. The kinds that the script names and maps to themselves in small letters are not
listed again. -/
def resource (kind : Text) : Text := (resources.lookup kind).getD (kind.map asciiLower)

/-- The kind and the name of a document so far. -/
structure Document where
  kind : Text
  name : Text

/-- `flush` -/
def Document.entries (d : Document) : List Text :=
  if d.kind ≠ [] ∧ d.name ≠ [] then [resource d.kind ++ '/' :: d.name] else []

def Document.read (d : Document) (line : Text) : Document :=
  if hasKey (spelled "kind:" rfl) line then
    if d.kind = [] then { d with kind := (secondField line).filter (· ∉ ['"', '\'']) } else d
  else if hasKey (spelled "  name:" rfl) line then
    if d.name = [] then { d with name := secondField line } else d
  else d

def entriesFrom : Document → List Text → List Text
  | d, [] => d.entries
  | d, line :: rest =>
    if isMarker line then d.entries ++ entriesFrom ⟨[], []⟩ rest else entriesFrom (d.read line) rest

/-- `manifest_entries` -/
def manifestEntries (manifest : Text) : List Text := entriesFrom ⟨[], []⟩ (lines manifest)

/-- The entries of all manifests whose creation was attempted. -/
def attempted (manifests : List Text) : List Text := manifests.flatMap manifestEntries

/-- What stands before and behind the first slash. -/
def splitEntry (entry : Text) : Text × Text :=
  (entry.takeWhile (· ≠ '/'), (entry.dropWhile (· ≠ '/')).drop 1)

def clusterScoped : List Text := [
  spelled "namespace" rfl, spelled "customresourcedefinition.apiextensions.k8s.io" rfl,
  spelled "clusterrole.rbac.authorization.k8s.io" rfl,
  spelled "clusterrolebinding.rbac.authorization.k8s.io" rfl]

/-- `entry_is_cluster_scoped` -/
def entryIsClusterScoped (entry : Text) : Bool :=
  '/' ∈ entry && (splitEntry entry).1 ∈ clusterScoped && (splitEntry entry).2 ≠ [] &&
    '/' ∉ (splitEntry entry).2

/-- The collections of the API, with `INSTALL_NAMESPACE` where it belongs. -/
def collections : List (Text × Text) := [
  (spelled "namespace" rfl, spelled "/api/v1/namespaces/" rfl),
  (spelled "customresourcedefinition.apiextensions.k8s.io" rfl,
    spelled "/apis/apiextensions.k8s.io/v1/customresourcedefinitions/" rfl),
  (spelled "clusterrole.rbac.authorization.k8s.io" rfl,
    spelled "/apis/rbac.authorization.k8s.io/v1/clusterroles/" rfl),
  (spelled "clusterrolebinding.rbac.authorization.k8s.io" rfl,
    spelled "/apis/rbac.authorization.k8s.io/v1/clusterrolebindings/" rfl),
  (spelled "networkpolicy.networking.k8s.io" rfl,
    spelled "/apis/networking.k8s.io/v1/namespaces/flux-system/networkpolicies/" rfl),
  (spelled "deployment.apps" rfl, spelled "/apis/apps/v1/namespaces/flux-system/deployments/" rfl),
  (spelled "resourcequota" rfl, spelled "/api/v1/namespaces/flux-system/resourcequotas/" rfl),
  (spelled "serviceaccount" rfl, spelled "/api/v1/namespaces/flux-system/serviceaccounts/" rfl),
  (spelled "service" rfl, spelled "/api/v1/namespaces/flux-system/services/" rfl),
  (spelled "pod" rfl, spelled "/api/v1/namespaces/flux-system/pods/" rfl)]

def isNameChar (c : Char) : Bool := c.isDigit || 'a' ≤ c && c ≤ 'z'

/-- `^[a-z0-9]([-.a-z0-9]*[a-z0-9])?$` -/
def isObjectName (name : Text) : Bool :=
  name.head?.any isNameChar && name.getLast?.any isNameChar &&
    name.all fun c => isNameChar c || c = '-' || c = '.'

/-- `entry_api_path` -/
def entryApiPath (entry : Text) : Option Text :=
  if '/' ∈ entry && isObjectName (splitEntry entry).2 then
    (collections.lookup (splitEntry entry).1).map (· ++ (splitEntry entry).2)
  else none

/-! ## Metadata -/

/-- One field that `read` takes with `IFS='|'`, and the rest. -/
def takeField (t : Text) : Text × Text :=
  (t.takeWhile (· ≠ '|'), (t.dropWhile (· ≠ '|')).drop 1)

/-- What the last variable of `read` takes: everything, without a separator that ends it. -/
def lastField (t : Text) : Text := if (takeField t).2 = [] then (takeField t).1 else t

structure Metadata where
  attempt : Text
  uid : Text
  version : Text

/-- `^[1-9][0-9]*$` -/
def isResourceVersion (t : Text) : Bool := t.head?.any (· ≠ '0') && t.all Char.isDigit

/-- The identity that the output of a read shows. -/
def readMetadata (output : Text) : Option Metadata :=
  let first := takeField (output.takeWhile (· ≠ '\n'))
  let second := takeField first.2
  let third := takeField second.2
  let fourth := takeField third.2
  if lastField fourth.2 = [] ∧ fourth.1 = ['E', 'N', 'D'] ∧ isUid second.1 = true ∧
      isResourceVersion third.1 = true then
    some ⟨first.1, second.1, third.1⟩
  else none

/-- `CAPTURE_STATE`, with what was captured -/
inductive Captured
  | error
  | absent
  | present (m : Metadata)

def Reading.captured : Reading → Captured
  | .found output => ((readMetadata output).map .present).getD .error
  | .notFound => .absent
  | .failed => .error

/-- `capture_entry_metadata` -/
def captureEntryMetadata (entry : Text) : Script Captured :=
  (kubeGet entry).bind fun reading => .done reading.captured

/-- `conditional_delete_entry` -/
def conditionalDeleteEntry (entry uid version : Text) : Script Bool :=
  match entryApiPath entry with
  | none => .done false
  | some path => kubeDelete path uid version

/-! ## The ledger -/

/-- A line of the ledger. -/
structure Record where
  entry : Text
  uid : Text
  version : Text

structure Harvest where
  ledger : List Record
  collisions : List Text
  uncertain : List Text

/-- One turn of the loop of `harvest_ledger`. -/
def harvestEntry (attempt : Text) (h : Harvest) (entry : Text) : Script Harvest :=
  (captureEntryMetadata entry).bind fun captured => .done <|
    match captured with
    | .error => { h with uncertain := h.uncertain ++ [entry] }
    | .absent => h
    | .present m =>
      if m.attempt = attempt then { h with ledger := h.ledger ++ [⟨entry, m.uid, m.version⟩] }
      else { h with collisions := h.collisions ++ [entry] }

/-- `harvest_ledger` -/
def harvestLedger (attempt : Text) (manifests : List Text) : Script Harvest :=
  Client.fold (harvestEntry attempt) ⟨[], [], []⟩ (attempted manifests)

/-- `UID_GONE_STATE`; the status is success for the first two. -/
inductive Gone
  | absent
  | replaced
  | residue
  | error

def Captured.gone (uid : Text) : Captured → Gone
  | .error => .error
  | .absent => .absent
  | .present m => if m.uid ≠ uid then .replaced else .residue

/-- `attempt_uid_is_gone` -/
def attemptUidIsGone (entry uid : Text) : Script Gone :=
  (captureEntryMetadata entry).bind fun captured => .done (captured.gone uid)

/-! ## Rollback -/

/-- `namespace/${INSTALL_NAMESPACE}` -/
def namespaceEntry : Text := spelled "namespace/flux-system" rfl

/-- One turn of the loop that deletes. -/
def removeRecord (_ : Unit) (r : Record) : Script Unit :=
  if r.entry = namespaceEntry then .done ()
  else (conditionalDeleteEntry r.entry r.uid r.version).bind fun _ => .done ()

/-- What is left, and whether the Namespace has to be kept. -/
structure Residue where
  entries : List Text
  preserveNamespace : Bool

def Residue.add (s : Residue) (entry : Text) : Gone → Residue
  | .absent => s
  | .replaced => { s with preserveNamespace := s.preserveNamespace || !entryIsClusterScoped entry }
  | .residue | .error =>
    ⟨s.entries ++ [entry], s.preserveNamespace || !entryIsClusterScoped entry⟩

/-- One turn of the loop that proves the deletions. -/
def checkRecord (s : Residue) (r : Record) : Script Residue :=
  if r.entry = namespaceEntry then .done s
  else (attemptUidIsGone r.entry r.uid).bind fun gone => .done (s.add r.entry gone)

/-- The Namespace last, where nothing else would go with it. -/
def removeNamespace (s : Residue) (r : Record) : Script (List Text) :=
  if s.preserveNamespace then .done (s.entries ++ [r.entry])
  else
    (conditionalDeleteEntry r.entry r.uid r.version).bind fun _ =>
      (attemptUidIsGone r.entry r.uid).bind fun gone => .done <|
        match gone with
        | .absent | .replaced => s.entries
        | .residue | .error => s.entries ++ [r.entry]

/-- What the harvest alone says about the Namespace. -/
def Harvest.preserveNamespace (h : Harvest) : Bool :=
  (h.collisions ++ h.uncertain).any fun entry => !entryIsClusterScoped entry

/-- `rollback`, and whether its status is success -/
def rollback (attempt : Text) (manifests : List Text) : Script Bool :=
  (harvestLedger attempt manifests).bind fun h =>
    if h.ledger.isEmpty then .done h.uncertain.isEmpty
    else
      (Client.fold removeRecord () h.ledger.reverse).bind fun _ =>
        (Client.fold checkRecord ⟨[], h.preserveNamespace⟩ h.ledger).bind fun s =>
          match h.ledger.find? (·.entry = namespaceEntry) with
          | none => .done (s.entries ++ h.uncertain).isEmpty
          | some r => (removeNamespace s r).bind fun residue =>
            .done (residue ++ h.uncertain).isEmpty

end FluxInstall
