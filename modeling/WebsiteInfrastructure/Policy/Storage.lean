import Mathlib
import WebsiteInfrastructure.Library.PurePath
import WebsiteInfrastructure.Policy.Documents

/-!
# PersistentVolumes

The deny rules that can fire on a PersistentVolume; every other one asks for another kind first.
-/

namespace Policy

open Rego

/-! ## Enumerations -/

def storageKinds : List String :=
  ["PersistentVolume", "PersistentVolumeClaim", "StorageClass", "CSIDriver", "VolumeAttributesClass"]

def enumeratedStorageClasses : List String := ["local-pie-ssd", "local-pie-ssd-reserved"]

def enumeratedCsiDrivers : List String := []

def enumeratedLocalVolumeRoots : List String := ["/mnt/local-pie-ssd"]

def enumeratedVolumeAttributesClasses : List String := []

def admittedPersistentVolumeSources : List String := ["local", "csi"]

def persistentVolumeNonSourceFields : List String :=
  ["accessModes", "capacity", "claimRef", "mountOptions", "nodeAffinity",
    "persistentVolumeReclaimPolicy", "storageClassName", "volumeAttributesClassName", "volumeMode"]

def reservedFileClaims : List (String × String) :=
  [("obsync-blobs", "250Gi"), ("obsync-journal", "4Gi")]

/-! ## What the rules read -/

section

variable (input : Term)

/-- An object, or an empty one in its place. -/
def objectOrEmpty : Ref → Term
  | some (.obj fields) => .obj fields
  | _ => .obj []

/-- `storage_sub_object` -/
def storageSubObject (parent : Term) (key : String) : Term :=
  objectOrEmpty (Ref.get parent key (.obj []))

def storageObjectName : String :=
  match (Ref.get input "metadata" (.obj [])).get "name" (.str "") with
  | some (.str name) => if name = "" then "<unnamed>" else name
  | _ => "<unnamed>"

def storageObjectSpec : Term := storageSubObject input "spec"

def isStorageObject : Bool := kindIs input storageKinds

def persistentVolumeSources : List String :=
  (((Ref.keys (storageObjectSpec input)).getD []).filter
    (· ∉ persistentVolumeNonSourceFields)).dedup

def storageSpecDeclares (field : String) : Bool :=
  field ∈ (Ref.keys (storageObjectSpec input)).getD []

def emptyCollection : Ref → Bool
  | some (.arr items) => items.isEmpty
  | some (.obj fields) => fields.isEmpty
  | _ => false

/-- `"spec" in object.keys(input)`, an object -/
def storageObjectHasUsableSpec : Bool := (inp input ["spec"]).any Term.isObject

def localPath : Ref := Ref.get (storageSubObject (storageObjectSpec input) "local") "path" (.str "")

def localPathUnderEnumeratedRoot : Ref → Bool
  | some (.str path) => enumeratedLocalVolumeRoots.any fun root =>
      path = root || (root ++ "/").toList.isPrefixOf path.toList
  | _ => false

/-- `contains(path, "..")`, of a string -/
def hasParentTraversal : Ref → Bool
  | some (.str path) => "..".toList <:+: path.toList
  | _ => false

/-- The items of an array, the values of an object. -/
def nodeSelectorTermNamesNodes (term : Term) : Bool :=
  ["matchExpressions", "matchFields"].any fun matcher =>
    (Ref.get term matcher (.arr [])).each.any fun expression =>
      holds ((Ref.get expression "operator" (.str "")).equals (.str "In")) &&
        (match Ref.get expression "values" (.arr []) with
          | some (.arr values) => 0 < values.length
          | _ => false)

def localVolumeIsBoundToNamedNodes : Bool :=
  let required := storageSubObject (storageSubObject (storageObjectSpec input) "nodeAffinity")
    "required"
  match Ref.get required "nodeSelectorTerms" (.arr []) with
  | some (.arr terms) => 0 < terms.length && terms.all nodeSelectorTermNamesNodes
  | _ => false

/-! ## The reserved-file profile -/

/-- A letter in lower case or a digit. -/
def isLowerAlphanum (c : Char) : Bool := c.isLower || c.isDigit

/-- `^[a-z0-9]([a-z0-9.-]*[a-z0-9])?$` -/
def isNodeName (name : String) : Bool :=
  name.toList.all (fun c => isLowerAlphanum c || c = '.' || c = '-') &&
    name.toList.head?.any isLowerAlphanum && name.toList.getLast?.any isLowerAlphanum

/-- The node affinity of the profile. -/
def reservedAffinity (values : Term) : Term :=
  .obj [("required", .obj [("nodeSelectorTerms", .arr [.obj [("matchExpressions", .arr [.obj
    [("key", .str "kubernetes.io/hostname"), ("operator", .str "In"), ("values", values)]])]])])]

/-- The spec of the profile, in the order of its keys. -/
def reservedSpec (claim size : String) (affinity : Term) : Term :=
  .obj [("accessModes", .strings ["ReadWriteOnce"]),
    ("capacity", .obj [("storage", .str size)]),
    ("claimRef", .obj [("name", .str claim), ("namespace", .str "obsidian")]),
    ("local", .obj [("path", .str ("/mnt/local-pie-ssd-reserved/" ++ claim))]),
    ("nodeAffinity", affinity), ("persistentVolumeReclaimPolicy", .str "Retain"),
    ("storageClassName", .str "local-pie-ssd-reserved"), ("volumeMode", .str "Filesystem")]

def reservedFilePvAllowed : Bool :=
  kindIs input ["PersistentVolume"] &&
    reservedFileClaims.any fun (claim, size) =>
      storageObjectName input = claim ++ "-reserved" &&
        (let affinity := storageSubObject (storageObjectSpec input) "nodeAffinity"
          let terms := (Ref.path affinity ["required", "nodeSelectorTerms"]).nth 0
          let values := ((terms.dot "matchExpressions").nth 0).dot "values"
          values.any fun (list : Term) =>
            holds (Ref.count list |>.map (· = 1)) &&
              (match Ref.nth list 0 with
                | some (.str name) => isNodeName name
                | _ => false) &&
              affinity = reservedAffinity list &&
              storageObjectSpec input = reservedSpec claim size affinity)

/-! ## Deny rules -/

/-- The volume does not have one source of an enumerated means. -/
def denySources : Bool :=
  (persistentVolumeSources input).length ≠ 1 ||
    (persistentVolumeSources input).any (· ∉ admittedPersistentVolumeSources) ||
    "csi" ∈ persistentVolumeSources input &&
      !holds ((Ref.get (storageSubObject (storageObjectSpec input) "csi") "driver" (.str "")).isIn
        enumeratedCsiDrivers)

/-- A local volume is outside the enumerated root, or not pinned. -/
def denyLocal : Bool :=
  "local" ∈ persistentVolumeSources input &&
    (!localPathUnderEnumeratedRoot (localPath input) && !reservedFilePvAllowed input ||
      hasParentTraversal (localPath input) || !localVolumeIsBoundToNamedNodes input)

def storageClassName : Ref := Ref.get (storageObjectSpec input) "storageClassName" (.str "")

/-- The class, or what else could name another means. -/
def denyReferences : Bool :=
  !holds ((storageClassName input).isIn enumeratedStorageClasses) ||
    storageSpecDeclares input "volumeAttributesClassName" &&
      !holds ((Ref.get (storageObjectSpec input) "volumeAttributesClassName" (.str "")).isIn
        enumeratedVolumeAttributesClasses) ||
    storageSpecDeclares input "mountOptions" &&
      !emptyCollection (Ref.get (storageObjectSpec input) "mountOptions" (.arr [])) ||
    holds ((storageClassName input).equals (.str "local-pie-ssd-reserved")) &&
      !reservedFilePvAllowed input

/-- Whether some deny rule fires on a PersistentVolume. -/
def denyVolume : Bool :=
  isStorageObject input &&
    (!storageObjectHasUsableSpec input || denySources input || denyLocal input ||
      denyReferences input)

end

/-! ## Pinned volumes -/

/-- A requirement with the operator `In`, on a key and with a list of values. -/
def IsInMatch (key : String) (requirement : Term) : Prop :=
  Ref.dot requirement "key" = some (.str key) ∧ Ref.dot requirement "operator" = some (.str "In") ∧
    ∃ values, Ref.dot requirement "values" = some (.arr values)

/-- A node selector term is satisfied only by the nodes that one of its requirements lists. -/
def NamesNodes (term : Term) : Prop :=
  (∃ items, Ref.dot term "matchExpressions" = some (.arr items) ∧
      ∃ requirement ∈ items, IsInMatch "kubernetes.io/hostname" requirement) ∨
    ∃ items, Ref.dot term "matchFields" = some (.arr items) ∧
      ∃ requirement ∈ items, IsInMatch "metadata.name" requirement

/-! ## Nodes -/

/-- What node selectors see of a node. -/
structure Node where
  name : String
  labels : String → Option String

/-- Whether a node has a value that a requirement accepts, for a value of the requirement's key. -/
def meets (subject : Option String) (requirement : Term) : Prop :=
  match Ref.dot requirement "operator", Ref.dot requirement "values" with
  | some (.str "In"), some (.arr values) => ∃ v, subject = some v ∧ .str v ∈ values
  | some (.str "NotIn"), some (.arr values) => ∀ v, subject = some v → .str v ∉ values
  | some (.str "Exists"), _ => subject ≠ none
  | some (.str "DoesNotExist"), _ => subject = none
  | some (.str "Gt"), some (.arr [.str bound]) =>
    ∃ v n m, subject = some v ∧ v.toInt? = some n ∧ bound.toInt? = some m ∧ m < n
  | some (.str "Lt"), some (.arr [.str bound]) =>
    ∃ v n m, subject = some v ∧ v.toInt? = some n ∧ bound.toInt? = some m ∧ n < m
  | _, _ => False

/-- What a requirement of a term is about. -/
def subjectOf (node : Node) (matcher key : String) : Option String :=
  if matcher = "matchFields" then if key = "metadata.name" then some node.name else none
  else node.labels key

/-- A node satisfies a term if it meets all of its requirements. -/
def Satisfies (node : Node) (term : Term) : Prop :=
  ∀ matcher ∈ ["matchExpressions", "matchFields"], ∀ items,
    Ref.dot term matcher = some (.arr items) → ∀ requirement ∈ items, ∀ key,
      Ref.dot requirement "key" = some (.str key) →
        meets (subjectOf node matcher key) requirement

theorem subject_mem_of_inMatch {key : String} {requirement : Term} (h : IsInMatch key requirement) :
    ∃ values : List Term, ∀ subject, meets subject requirement →
      ∃ v, subject = some v ∧ .str v ∈ values := by
  obtain ⟨-, hoperator, values, hvalues⟩ := h
  refine ⟨values, fun subject hmeets => ?_⟩
  simpa [meets, hoperator, hvalues] using hmeets

/-- A term that names nodes is satisfied by those only. -/
theorem NamesNodes.bounded {term : Term} (h : NamesNodes term) : ∃ values : List Term,
    ∀ node, Satisfies node term → .str node.name ∈ values ∨
      ∃ hostname, node.labels "kubernetes.io/hostname" = some hostname ∧ .str hostname ∈ values := by
  cases h with
  | inl hexpression =>
    obtain ⟨items, hitems, requirement, hmem, hmatch⟩ := hexpression
    obtain ⟨values, hbound⟩ := subject_mem_of_inMatch hmatch
    refine ⟨values, fun node hnode => .inr (hbound _ ?_)⟩
    exact hnode "matchExpressions" (by simp) items hitems requirement hmem _ hmatch.1
  | inr hfield =>
    obtain ⟨items, hitems, requirement, hmem, hmatch⟩ := hfield
    obtain ⟨values, hbound⟩ := subject_mem_of_inMatch hmatch
    refine ⟨values, fun node hnode => .inl ?_⟩
    have hmeets := hnode "matchFields" (by simp) items hitems requirement hmem _ hmatch.1
    obtain ⟨name, hname, hvalue⟩ := hbound _ hmeets
    obtain rfl : node.name = name := by simpa [subjectOf] using hname
    exact hvalue

/-- The terms of the required node affinity. -/
def requiredTerms (input : Term) : Ref :=
  inp input ["spec", "nodeAffinity", "required", "nodeSelectorTerms"]

/-- The path is an enumerated root or lies below one, with its dots resolved. -/
def UnderRoot (path : String) : Prop :=
  ∃ root ∈ enumeratedLocalVolumeRoots,
    (PurePosixPath.ofString root).Contains (PurePosixPath.ofString path).resolve

structure PinnedLocally (input : Term) : Prop where
  /-- The only field of the spec that is a source is `local`. -/
  source : ∃ fields, inp input ["spec"] = some (.obj fields) ∧
    ∀ key, (key ∈ fields.map Prod.fst ∧ key ∉ persistentVolumeNonSourceFields) ↔ key = "local"
  path : ∃ path, inp input ["spec", "local", "path"] = some (.str path) ∧
    (UnderRoot path ∨ reservedFilePvAllowed input = true)
  storageClass : ∃ c ∈ enumeratedStorageClasses,
    inp input ["spec", "storageClassName"] = some (.str c)
  terms : ∃ terms, requiredTerms input = some (.arr terms) ∧ terms ≠ [] ∧
    ∀ term ∈ terms, NamesNodes term

/-! ## What is accepted -/

variable {input : Term}

theorem objectOrEmpty_get {r : Ref} {key : String} {t default : Term}
    (h : Ref.get (objectOrEmpty r) key default = some t) (ht : t ≠ default) :
    Ref.dot (objectOrEmpty r) key = some t := by
  cases r with
  | none => simp_all [objectOrEmpty, Ref.get]
  | some u =>
    cases u with
    | obj fields =>
      cases hlookup : fields.lookup key with
      | none => simp_all [objectOrEmpty, Ref.get]
      | some v => simp_all [objectOrEmpty, Ref.get, Ref.dot]
    | _ => simp_all [objectOrEmpty, Ref.get]

/-- What is below a part that is read in place of an object is in the document. -/
theorem dot_storageSubObject {parent : Term} {part key : String} {t : Term}
    (h : Ref.dot (storageSubObject parent part) key = some t) :
    (Ref.dot parent part).dot key = some t := by
  unfold storageSubObject at h
  cases parent with
  | obj fields =>
    cases hlookup : fields.lookup part with
    | none => simp [Ref.get, hlookup, objectOrEmpty, Ref.dot] at h
    | some v =>
      cases v with
      | obj below => simpa [Ref.get, hlookup, objectOrEmpty, Ref.dot] using h
      | _ => simp [Ref.get, hlookup, objectOrEmpty, Ref.dot] at h
  | _ => simp [Ref.get, objectOrEmpty, Ref.dot] at h

/-- A value below a part of the spec that is not the default is in the document. -/
theorem dot_of_storageSubObject {parent : Term} {part key : String} {t default : Term}
    (h : Ref.get (storageSubObject parent part) key default = some t) (ht : t ≠ default) :
    (Ref.dot parent part).dot key = some t :=
  dot_storageSubObject (objectOrEmpty_get h ht)

theorem mem_persistentVolumeSources {fields : List (String × Term)}
    (hspec : storageObjectSpec input = .obj fields) {key : String} :
    key ∈ persistentVolumeSources input ↔
      key ∈ fields.map Prod.fst ∧ key ∉ persistentVolumeNonSourceFields := by
  simp [persistentVolumeSources, hspec, Ref.keys]

theorem sources_of_not_denied (h : denySources input = false) :
    persistentVolumeSources input = ["local"] := by
  simp only [denySources, Bool.or_eq_false_iff, decide_eq_false_iff_not, not_not] at h
  obtain ⟨⟨hlength, hadmitted⟩, hcsi⟩ := h
  obtain ⟨source, hsource⟩ := List.length_eq_one_iff.mp hlength
  rw [hsource] at hadmitted hcsi ⊢
  have hmem : source = "local" ∨ source = "csi" := by
    by_cases hlocal : source = "local"
    · exact .inl hlocal
    · exact .inr (by simpa [admittedPersistentVolumeSources, hlocal] using hadmitted)
  cases hmem with
  | inl hlocal => rw [hlocal]
  | inr heq =>
    -- no driver is enumerated
    have hdriver : ∀ r : Ref, holds (r.isIn enumeratedCsiDrivers) = false := by
      intro r
      cases r <;> rfl
    simp [heq, hdriver] at hcsi

theorem spec_of_usable (h : storageObjectHasUsableSpec input = true) : ∃ fields,
    inp input ["spec"] = some (.obj fields) ∧ storageObjectSpec input = .obj fields := by
  obtain ⟨t, ht, hobj⟩ := (Option.any_eq_true ..).mp h
  cases t with
  | obj fields =>
    have hdot : Ref.dot input "spec" = some (.obj fields) := ht
    have hget : Ref.get input "spec" (.obj []) = some (.obj fields) := Ref.get_of_dot hdot _
    exact ⟨fields, ht, by simp [storageObjectSpec, storageSubObject, hget, objectOrEmpty]⟩
  | _ => cases hobj

theorem underRoot_of_path {path : String} (h : localPathUnderEnumeratedRoot (some (.str path)) = true)
    (hdots : hasParentTraversal (some (.str path)) = false) : UnderRoot path := by
  obtain ⟨root, hroot, hpath⟩ := List.any_eq_true.mp h
  refine ⟨root, hroot, ?_⟩
  rw [PurePosixPath.resolve_ofString (by simpa [hasParentTraversal] using hdots)]
  cases Bool.or_eq_true _ _ |>.mp hpath with
  | inl heq =>
    have hsame : path = root := by simpa using heq
    rw [hsame]
    exact PurePosixPath.contains_refl _
  | inr hprefix =>
    have hslash : ∃ c ∈ root.toList, c ≠ '/' := by
      have hmnt : root = "/mnt/local-pie-ssd" := by
        simpa [enumeratedLocalVolumeRoots] using hroot
      rw [hmnt]
      exact ⟨'m', by decide, by decide⟩
    exact PurePosixPath.contains_ofString hslash (List.isPrefixOf_iff_prefix.mp hprefix)

/-- The path of the profile is in the document. -/
theorem localPath_of_reserved (h : reservedFilePvAllowed input = true) :
    ∃ path, (Ref.dot (storageObjectSpec input) "local").dot "path" = some (.str path) := by
  unfold reservedFilePvAllowed at h
  obtain ⟨⟨claim, size⟩, -, hclaim⟩ := List.any_eq_true.mp ((Bool.and_eq_true _ _).mp h).2
  obtain ⟨values, -, hvalues⟩ := (Option.any_eq_true ..).mp ((Bool.and_eq_true _ _).mp hclaim).2
  have hspec := of_decide_eq_true ((Bool.and_eq_true _ _).mp hvalues).2
  rw [hspec]
  exact ⟨_, rfl⟩

theorem path_of_not_denied {fields : List (String × Term)}
    (hspec : inp input ["spec"] = some (.obj fields))
    (hobject : storageObjectSpec input = .obj fields)
    (hallowed : localPathUnderEnumeratedRoot (localPath input) = true ∨
      reservedFilePvAllowed input = true)
    (hdots : hasParentTraversal (localPath input) = false) :
    ∃ path, inp input ["spec", "local", "path"] = some (.str path) ∧
      (UnderRoot path ∨ reservedFilePvAllowed input = true) := by
  have hpath : inp input ["spec", "local", "path"] =
      (Ref.dot (storageObjectSpec input) "local").dot "path" := by
    rw [hobject]
    exact congrArg (fun r : Ref => (r.dot "local").dot "path") hspec
  rw [hpath]
  cases hallowed with
  | inr hreserved =>
    obtain ⟨path, hdot⟩ := localPath_of_reserved hreserved
    exact ⟨path, hdot, .inr hreserved⟩
  | inl hunder =>
    cases hvalue : localPath input with
    | none => simp [hvalue, localPathUnderEnumeratedRoot] at hunder
    | some t =>
      cases t with
      | str path =>
        rw [hvalue] at hunder hdots
        have hne : Term.str path ≠ .str "" := by
          intro heq
          rw [heq] at hunder
          exact absurd hunder (by decide)
        exact ⟨path, dot_of_storageSubObject hvalue hne, .inl (underRoot_of_path hunder hdots)⟩
      | _ => simp [hvalue, localPathUnderEnumeratedRoot] at hunder

theorem terms_of_bound {fields : List (String × Term)} (hspec : inp input ["spec"] = some (.obj fields))
    (hobject : storageObjectSpec input = .obj fields)
    (h : localVolumeIsBoundToNamedNodes input = true) :
    ∃ terms, requiredTerms input = some (.arr terms) ∧ terms ≠ [] := by
  unfold localVolumeIsBoundToNamedNodes at h
  cases hget : Ref.get (storageSubObject (storageSubObject (storageObjectSpec input) "nodeAffinity")
      "required") "nodeSelectorTerms" (.arr []) with
  | none => simp [hget] at h
  | some t =>
    cases t with
    | arr terms =>
      have hne : terms ≠ [] := by
        rintro rfl
        simp [hget] at h
      have hdefault : Term.arr terms ≠ .arr [] := by simpa using hne
      have hbelow := dot_of_storageSubObject hget hdefault
      obtain ⟨required, hrequired, hterms⟩ := Ref.dot_eq_some.mp hbelow
      have haffinity := dot_storageSubObject hrequired
      rw [hobject] at haffinity
      have hpath : requiredTerms input =
          ((Ref.dot (some (.obj fields)) "nodeAffinity").dot "required").dot "nodeSelectorTerms" := by
        rw [← hspec]
        rfl
      rw [hpath, haffinity]
      exact ⟨terms, hterms, hne⟩
    | _ => simp [hget] at h

theorem class_of_not_denied {fields : List (String × Term)}
    (hspec : inp input ["spec"] = some (.obj fields))
    (hobject : storageObjectSpec input = .obj fields)
    (h : holds ((storageClassName input).isIn enumeratedStorageClasses) = true) :
    ∃ c ∈ enumeratedStorageClasses, inp input ["spec", "storageClassName"] = some (.str c) := by
  rw [holds_eq_true, Ref.isIn_eq_some] at h
  obtain ⟨c, hc, hget⟩ := h
  refine ⟨c, hc, ?_⟩
  have hpath : inp input ["spec", "storageClassName"] =
      Ref.dot (some (.obj fields)) "storageClassName" := by
    rw [← hspec]
    rfl
  rw [hpath]
  unfold storageClassName at hget
  rw [hobject] at hget
  cases hlookup : fields.lookup "storageClassName" with
  | none =>
    have hempty : c = "" := by simpa [Ref.get, hlookup, eq_comm] using hget
    subst hempty
    exact absurd hc (by decide)
  | some v => simpa [Ref.get, hlookup, Ref.dot] using hget

/-- Everything but the keys of the node selector terms is checked. -/
theorem accepted_volume (hkind : kindIs input ["PersistentVolume"] = true)
    (hdeny : denyVolume input = false) (hnamed : ∀ term ∈ (requiredTerms input).each, NamesNodes term) :
    PinnedLocally input := by
  have hstorage : isStorageObject input = true := by
    unfold isStorageObject
    unfold kindIs at hkind ⊢
    rw [holds_eq_true, Ref.isIn_eq_some] at hkind ⊢
    obtain ⟨n, hn, hvalue⟩ := hkind
    have hpv : n = "PersistentVolume" := by simpa using hn
    exact ⟨n, by simp [hpv, storageKinds], hvalue⟩
  simp only [denyVolume, hstorage, Bool.true_and, Bool.or_eq_false_iff, Bool.not_eq_false'] at hdeny
  obtain ⟨⟨⟨husable, hsources⟩, hlocal⟩, hreferences⟩ := hdeny
  obtain ⟨fields, hspec, hobject⟩ := spec_of_usable husable
  have hsource := sources_of_not_denied hsources
  simp only [denyLocal, hsource, List.mem_singleton, decide_true, Bool.true_and,
    Bool.or_eq_false_iff, Bool.and_eq_false_iff, Bool.not_eq_false'] at hlocal
  obtain ⟨⟨hallowed, hdots⟩, hbound⟩ := hlocal
  simp only [denyReferences, Bool.or_eq_false_iff, Bool.not_eq_false'] at hreferences
  obtain ⟨⟨⟨hclass, -⟩, -⟩, -⟩ := hreferences
  obtain ⟨terms, hterms, hne⟩ := terms_of_bound hspec hobject hbound
  refine ⟨⟨fields, hspec, fun key => ?_⟩, path_of_not_denied hspec hobject hallowed hdots,
    class_of_not_denied hspec hobject hclass, terms, hterms, hne, fun term hterm => ?_⟩
  · rw [← mem_persistentVolumeSources hobject, hsource]
    simp
  · exact hnamed term (by rwa [hterms])

/-- A PersistentVolume that no rule denies is pinned exactly when its terms name nodes, which the
rules check but for the key. -/
theorem pinned_iff_named (hkind : kindIs input ["PersistentVolume"] = true)
    (hdeny : denyVolume input = false) :
    PinnedLocally input ↔ ∀ term ∈ (requiredTerms input).each, NamesNodes term := by
  constructor
  · intro hpinned term hterm
    obtain ⟨terms, hterms, -, hnamed⟩ := hpinned.terms
    rw [hterms] at hterm
    exact hnamed term hterm
  · exact accepted_volume hkind hdeny

/-- A local volume whose one node selector term has one requirement. -/
def sampleVolume (key value : String) : Term :=
  .obj [("kind", .str "PersistentVolume"), ("metadata", .obj [("name", .str "pv")]),
    ("spec", .obj [("local", .obj [("path", .str "/mnt/local-pie-ssd/v")]),
      ("nodeAffinity", .obj [("required", .obj [("nodeSelectorTerms", .arr [.obj
        [("matchExpressions", .arr [.obj [("key", .str key), ("operator", .str "In"),
          ("values", .strings [value])]])]])])]),
      ("storageClassName", .str "local-pie-ssd")])]

theorem pinned_iff_named_sample : PinnedLocally (sampleVolume "kubernetes.io/hostname" "pi") ↔
    ∀ term ∈ (requiredTerms (sampleVolume "kubernetes.io/hostname" "pi")).each, NamesNodes term :=
  pinned_iff_named (by decide) (by decide)

/-- A volume for every node that runs Linux is accepted. -/
theorem unbounded_volume_accepted :
    kindIs (sampleVolume "kubernetes.io/os" "linux") ["PersistentVolume"] = true ∧
      denyVolume (sampleVolume "kubernetes.io/os" "linux") = false ∧
        ¬ PinnedLocally (sampleVolume "kubernetes.io/os" "linux") := by
  refine ⟨by decide, by decide, fun hpinned => ?_⟩
  obtain ⟨terms, hterms, -, hnamed⟩ := hpinned.terms
  have hlist : terms = [.obj [("matchExpressions", .arr [.obj [("key", .str "kubernetes.io/os"),
      ("operator", .str "In"), ("values", .strings ["linux"])]])]] := by
    have hvalue : requiredTerms (sampleVolume "kubernetes.io/os" "linux") = some (.arr [.obj
        [("matchExpressions", .arr [.obj [("key", .str "kubernetes.io/os"),
          ("operator", .str "In"), ("values", .strings ["linux"])]])]]) := by decide
    rw [hvalue] at hterms
    simpa using hterms.symm
  have hnames := hnamed _ (by rw [hlist]; exact .head _)
  simp only [NamesNodes, IsInMatch, Ref.dot, Option.bind_some] at hnames
  have hfields : ("matchFields" == "matchExpressions") = false := by decide
  simp [List.lookup, hfields] at hnames

end Policy
