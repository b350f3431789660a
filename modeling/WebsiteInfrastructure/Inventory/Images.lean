import Mathlib
import WebsiteInfrastructure.Inventory.Closure

/-!
# Images and privileges of an accepted inventory

The containers and the init containers of a Pod run, in order, the images its controller lists,
and what is asked of an unprivileged Pod is asked of all three lists of its containers.
-/

namespace RuntimeInventory

open Json Raising

variable {F : Type}

/-! ## Images -/

/-- The images of the containers and of the init containers of a specification, in order. -/
def Runs (spec : Value F) (images : List Text) : Prop :=
  ∃ regular init, spec.getOr "containers" (.arr []) = .ok (.arr regular) ∧
    spec.getOr "initContainers" (.arr []) = .ok (.arr init) ∧
    (regular ++ init).map (·.get "image") = images.map .str

theorem imagesOf_eq_some {containers : List (Value F)} {images : List Text}
    (h : imagesOf containers = some images) : containers.map (·.get "image") = images.map .str := by
  induction containers generalizing images with
  | nil =>
    obtain rfl := Option.some.inj h
    rfl
  | cons c cs ih =>
    obtain ⟨image, himage, hrest⟩ := Option.bind_eq_some_iff.mp h
    obtain ⟨rest, hcs, heq⟩ := Option.bind_eq_some_iff.mp hrest
    obtain rfl := Option.some.inj heq
    rw [List.map_cons, List.map_cons, ih hcs, (Value.filled?_eq_some.mp himage).1]

theorem containerImages_eq_ok {spec : Value F} {images : List Text}
    (h : containerImages spec = .ok (some images)) : Runs spec images := by
  obtain ⟨regular, hregular, hrest⟩ := bind_eq_ok.mp h
  obtain ⟨init, hinit, hrest⟩ := bind_eq_ok.mp hrest
  split at hrest
  · split at hrest
    · exact ⟨_, _, hregular, hinit, imagesOf_eq_some (Except.ok.inj hrest)⟩
    · cases hrest
  · cases hrest

/-! ## Privileges -/

variable [Interpreter F]

/-- What is asked of each container of an unprivileged Pod. -/
structure RestrictedContainer (allowed : List Text) (container : Value F) : Prop where
  security : ∃ security capabilities added,
    container.getOr "securityContext" (.obj []) = .ok security ∧
    security.getOr "capabilities" (.obj []) = .ok capabilities ∧
    capabilities.getOr "add" (.arr []) = .ok (.arr added) ∧
    security.get "privileged" ≠ .bool true ∧ security.get "allowPrivilegeEscalation" ≠ .bool true ∧
    security.get "procMount" ≠ .text "Unmasked" ∧ ∀ v ∈ added, ∃ t ∈ allowed, v = .str t
  ports : ∃ found ports, container.getOr "ports" (.arr []) = .ok found ∧ found.iterate = .ok ports ∧
    ∀ port ∈ ports, noneOrZero (port.get "hostPort") = .ok true

/-- What is asked of an unprivileged Pod. -/
structure Restricted (allowed : List Text) (spec : Value F) : Prop where
  host : ∀ field ∈ ["hostNetwork", "hostPID", "hostIPC"], spec.get field ≠ .bool true
  volumes : ∃ found volumes, spec.getOr "volumes" (.arr []) = .ok found ∧
    found.iterate = .ok volumes ∧ ∀ v ∈ volumes, v.containsText "hostPath" = .ok false
  containers : ∃ regular init ephemeral,
    spec.getOr "containers" (.arr []) = .ok (.arr regular) ∧
    spec.getOr "initContainers" (.arr []) = .ok (.arr init) ∧
    spec.getOr "ephemeralContainers" (.arr []) = .ok (.arr ephemeral) ∧
    ∀ c ∈ regular ++ init ++ ephemeral, RestrictedContainer allowed c

omit [Interpreter F] in
theorem isTrue_eq_true {v : Value F} : v.isTrue = true ↔ v = .bool true := by
  cases v <;> simp [Value.isTrue]

omit [Interpreter F] in
theorem allContainers_eq_ok {spec : Value F} {containers : List (Value F)}
    (h : allContainers spec = .ok containers) : ∃ regular init ephemeral,
      spec.getOr "containers" (.arr []) = .ok (.arr regular) ∧
      spec.getOr "initContainers" (.arr []) = .ok (.arr init) ∧
      spec.getOr "ephemeralContainers" (.arr []) = .ok (.arr ephemeral) ∧
      containers = regular ++ init ++ ephemeral := by
  obtain ⟨regular, hregular, hrest⟩ := bind_eq_ok.mp h
  obtain ⟨init, hinit, hrest⟩ := bind_eq_ok.mp hrest
  obtain ⟨ephemeral, hephemeral, hrest⟩ := bind_eq_ok.mp hrest
  split at hrest
  · exact ⟨_, _, _, hregular, hinit, hephemeral, (Except.ok.inj hrest).symm⟩
  · cases hrest

theorem addsCapability_eq_false {allowed : List Text} {added : List (Value F)}
    (h : addsCapability allowed added = .ok false) : ∀ v ∈ added, ∃ t ∈ allowed, v = .str t := by
  induction added with
  | nil => simp
  | cons v rest ih =>
    obtain ⟨known, hknown, hrest⟩ := bind_eq_ok.mp h
    cases known with
    | false => cases hrest
    | true =>
      refine List.forall_mem_cons.mpr ⟨?_, ih hrest⟩
      unfold Value.inSet at hknown
      split at hknown
      · have hany := Except.ok.inj hknown
        simpa [List.any_eq_true] using hany
      · cases hknown

theorem assertNoHostPort_eq_ok {spec : Value F} {label : List Text}
    (h : assertNoHostPort spec label = .ok ()) : ∃ containers, allContainers spec = .ok containers ∧
      ∀ c ∈ containers, ∃ found ports, c.getOr "ports" (.arr []) = .ok found ∧
        found.iterate = .ok ports ∧ ∀ port ∈ ports, noneOrZero (port.get "hostPort") = .ok true := by
  obtain ⟨containers, hcontainers, hrest⟩ := bind_eq_ok.mp h
  refine ⟨containers, hcontainers, fun c hc => ?_⟩
  obtain ⟨found, hfound, hrest⟩ := bind_eq_ok.mp (each_eq_ok.mp hrest c hc)
  obtain ⟨ports, hports, hrest⟩ := bind_eq_ok.mp hrest
  refine ⟨found, ports, hfound, hports, fun port hport => ?_⟩
  obtain ⟨hostPort, hget, hrest⟩ := bind_eq_ok.mp (each_eq_ok.mp hrest port hport)
  obtain ⟨absent, habsent, hrest⟩ := bind_eq_ok.mp hrest
  have htrue := raiseIf_eq_ok.mp hrest
  rw [Bool.not_eq_false] at htrue
  rw [Value.get_of_getOr hget, habsent, htrue]

theorem assertRestrictedContainer_eq_ok {label allowed : List Text} {c : Value F}
    (h : assertRestrictedContainer label allowed c = .ok ()) : ∃ security capabilities added,
      c.getOr "securityContext" (.obj []) = .ok security ∧
      security.getOr "capabilities" (.obj []) = .ok capabilities ∧
      capabilities.getOr "add" (.arr []) = .ok (.arr added) ∧
      security.get "privileged" ≠ .bool true ∧ security.get "allowPrivilegeEscalation" ≠ .bool true ∧
      security.get "procMount" ≠ .text "Unmasked" ∧ ∀ v ∈ added, ∃ t ∈ allowed, v = .str t := by
  obtain ⟨security, hsecurity, hrest⟩ := bind_eq_ok.mp h
  obtain ⟨capabilities, hcapabilities, hrest⟩ := bind_eq_ok.mp hrest
  obtain ⟨added, hadded, hrest⟩ := bind_eq_ok.mp hrest
  obtain ⟨hprivileged, hrest⟩ := raiseIf_bind_eq_ok.mp hrest
  obtain ⟨hescalation, hrest⟩ := raiseIf_bind_eq_ok.mp hrest
  obtain ⟨hproc, hrest⟩ := raiseIf_bind_eq_ok.mp hrest
  rw [isTrue_eq_true] at hprivileged hescalation
  rw [Value.eq_text] at hproc
  cases added with
  | arr added =>
    obtain ⟨adds, hadds, hrest⟩ := bind_eq_ok.mp hrest
    have hfalse : adds = false := by simpa using raiseIf_eq_ok.mp hrest
    rw [hfalse] at hadds
    exact ⟨security, capabilities, added, hsecurity, hcapabilities, hadded, hprivileged, hescalation,
      hproc, addsCapability_eq_false hadds⟩
  | _ => cases hrest

theorem assertRestrictedSpec_eq_ok {spec : Value F} {label allowed : List Text}
    (h : assertRestrictedSpec spec label allowed = .ok ()) : Restricted allowed spec := by
  obtain ⟨_, hhost, hrest⟩ := bind_eq_ok.mp h
  obtain ⟨found, hfound, hrest⟩ := bind_eq_ok.mp hrest
  obtain ⟨volumes, hvolumes, hrest⟩ := bind_eq_ok.mp hrest
  obtain ⟨_, hmounts, hrest⟩ := bind_eq_ok.mp hrest
  obtain ⟨containers, hcontainers, hrest⟩ := bind_eq_ok.mp hrest
  obtain ⟨_, hsecurity, hports⟩ := bind_eq_ok.mp hrest
  refine ⟨fun field hfield => ?_, ⟨found, volumes, hfound, hvolumes, fun v hv => ?_⟩, ?_⟩
  · obtain ⟨value, hvalue, hrest⟩ := bind_eq_ok.mp (each_eq_ok.mp hhost field hfield)
    have hnot := raiseIf_eq_ok.mp hrest
    rwa [isTrue_eq_true, ← Value.get_of_getOr hvalue] at hnot
  · obtain ⟨mounts, hcontains, hrest⟩ := bind_eq_ok.mp (each_eq_ok.mp hmounts v hv)
    have hfalse : mounts = false := by simpa using raiseIf_eq_ok.mp hrest
    rw [hcontains, hfalse]
  · obtain ⟨regular, init, ephemeral, hregular, hinit, hephemeral, rfl⟩ :=
      allContainers_eq_ok hcontainers
    refine ⟨regular, init, ephemeral, hregular, hinit, hephemeral, fun c hc => ⟨?_, ?_⟩⟩
    · exact assertRestrictedContainer_eq_ok (each_eq_ok.mp hsecurity c hc)
    · obtain ⟨containers', hcontainers', hall⟩ := assertNoHostPort_eq_ok hports
      rw [hcontainers] at hcontainers'
      exact hall c (Except.ok.inj hcontainers' ▸ hc)

/-! ## Every captured Pod -/

/-- The images the pins allow a Deployment. -/
def DeploymentPins (pins : Pins) (p : Provider) (i : Identity) (images : List Text) : Prop :=
  if i = p.deployment then p.strays images = false
  else ∃ image, pins.expectedDeploymentImages.lookup i = some image ∧ images = [image]

/-- The images the pins allow a DaemonSet. -/
def DaemonsetPins (pins : Pins) (p : Provider) (i : Identity) (images : List Text) : Prop :=
  if i = kubeProxy then images = [pins.kubernetesImage "kube-proxy"] else p.strays images = false

/-- A Pod and the template of its controller list the same images, which the pins allow. -/
def RunsTemplate (allows : Identity → List Text → Prop) (controller pod : Value F) : Prop :=
  ∃ i template images, identity? controller = some i ∧ templateSpec controller = .ok template ∧
    Runs template images ∧ allows i images ∧ Runs (podSpec pod) images

/-- What the images and the privileges of a Pod are bounded by. -/
inductive Bounded (pins : Pins) (p : Provider) (node : Text) (deployments daemonsets replicasets :
    List (Value F)) (pod : Value F) : Prop
  | mirror (i : Identity) (image : Text) (hid : identity? pod = some i) (hmirrors : Mirrors node pod)
      (himage : manifestImages pins node i.2 = some [image]) (hruns : Runs (podSpec pod) [image])
      (hinit : ((podSpec pod).get "initContainers").truthy = false)
      (hephemeral : ((podSpec pod).get "ephemeralContainers").truthy = false)
  | daemonset (s : Value F) (hs : s ∈ daemonsets) (howns : owns "DaemonSet" s pod = true)
      (himages : RunsTemplate (DaemonsetPins pins p) s pod)
  | deployment (d : Value F) (hd : d ∈ deployments) (hruns : runsFor replicasets d pod = true)
      (himages : RunsTemplate (DeploymentPins pins p) d pod)
      (hrestricted : ∃ i, identity? d = some i ∧ Restricted (allowedCapabilities i) (podSpec pod))

omit [Interpreter F] in
theorem checkDeploymentImages_eq_ok {pins : Pins} {p : Provider} {i : Identity} {images : List Text}
    (h : checkDeploymentImages pins p i images = .ok ()) : DeploymentPins pins p i images := by
  unfold checkDeploymentImages at h
  unfold DeploymentPins
  split
  · rename_i hi
    rw [if_pos hi] at h
    simpa using raiseIf_eq_ok.mp h
  · rename_i hi
    rw [if_neg hi] at h
    split at h
    · cases h
    · rename_i image himage
      exact ⟨image, himage, not_not.mp (raiseIf_eq_ok.mp h)⟩

omit [Interpreter F] in
theorem checkDaemonsetImages_eq_ok {pins : Pins} {p : Provider} {i : Identity} {images : List Text}
    (h : checkDaemonsetImages pins p i images = .ok ()) : DaemonsetPins pins p i images := by
  unfold checkDaemonsetImages at h
  unfold DaemonsetPins
  split
  · rename_i hi
    rw [if_pos hi] at h
    exact not_not.mp (raiseIf_eq_ok.mp h)
  · rename_i hi
    rw [if_neg hi] at h
    simpa using raiseIf_eq_ok.mp h

section Accepted

variable {pins : Pins} {captures : Captures F} {p : Provider} {c : Controllers F} {chain : Chain}
  {replicasets : List (Identity × Value F)} {tally : Tally}

/-- The images of a template are those the pins allow. -/
theorem Inventoried.deployment_pinned (h : Inventoried pins captures p c chain replicasets tally)
    {d : Identity × Value F} (hd : d ∈ c.deployments) :
    Pinned (DeploymentPins pins p d.1) d.2 := by
  have hforall := h.established.replicas
  rw [← h.count_eq.1, List.forall₂_map_right_iff, List.forall₂_same] at hforall
  obtain ⟨-, -, template, images, htemplate, himages, hallowed⟩ := checkDeployment_eq_ok (hforall d hd)
  exact ⟨template, images, htemplate, himages, checkDeploymentImages_eq_ok hallowed⟩

theorem Inventoried.daemonset_pinned (h : Inventoried pins captures p c chain replicasets tally)
    {d : Identity × Value F} (hd : d ∈ c.daemonsets) : Pinned (DaemonsetPins pins p d.1) d.2 := by
  have hforall := h.established.desired
  rw [← h.count_eq.2, List.forall₂_map_right_iff, List.forall₂_same] at hforall
  obtain ⟨-, -, template, images, htemplate, himages, hallowed⟩ := checkDaemonset_eq_ok (hforall d hd)
  exact ⟨template, images, htemplate, himages, checkDaemonsetImages_eq_ok hallowed⟩

omit [Interpreter F] in
/-- A Pod held to a template runs its images. -/
theorem runsTemplate_of_standing {entries : List (Identity × Value F)}
    {allows : Identity → List Text → Prop} (hkeys : (entries.map Prod.fst).Nodup)
    {e : Identity × Value F} (he : e ∈ entries) (hid : identity? e.2 = some e.1)
    (hpinned : Pinned (allows e.1) e.2) {standing : Standing} {pod : Value F} {images : List Text}
    (htemplate : FromTemplate entries e.1 standing)
    (hpod : containerImages (podSpec pod) = .ok (some images))
    (hsame : standing.expectedImages = some images) : RunsTemplate allows e.2 pod := by
  obtain ⟨e', he', hkey, template, hspec, himages⟩ := htemplate
  obtain rfl := eq_of_key hkeys he' he hkey
  obtain ⟨template', images', hspec', himages', hallows⟩ := hpinned
  obtain rfl := Except.ok.inj (hspec.symm.trans hspec')
  rw [hsame] at himages
  obtain rfl := Option.some.inj (Except.ok.inj (himages.symm.trans himages'))
  exact ⟨e'.1, template, images, hid, hspec, containerImages_eq_ok himages, hallows,
    containerImages_eq_ok hpod⟩

theorem manifestImages_eq_some {node name : Text} {images : List Text}
    (h : manifestImages pins node name = some images) : ∃ image, images = [image] := by
  obtain ⟨e, -, rfl⟩ := Option.map_eq_some_iff.mp h
  exact ⟨e.2, rfl⟩

theorem Inventoried.bounded (h : Inventoried pins captures p c chain replicasets tally)
    {pod : Value F} (hpod : pod ∈ itemsOf captures "pods.json") :
    Bounded pins p c.node.1 (itemsOf captures "deployments.json")
      (itemsOf captures "daemonsets.json") (itemsOf captures "replicasets.json") pod := by
  obtain ⟨before, after, hstep⟩ := carry_forall h.carried pod hpod
  obtain ⟨i, uid, standing, hheld⟩ := checkPod_eq_ok hstep
  obtain ⟨images, himages, hexpected⟩ := hheld.images
  have hdeployments := h.established.deployments
  have hdaemonsets := h.established.daemonsets
  rcases hheld.kind with ⟨hmirrors, hs⟩ | ⟨parent, hs⟩
  · have hmanifest : manifestImages pins c.node.1 i.2 = some images := hs.images ▸ hexpected
    obtain ⟨image, rfl⟩ := manifestImages_eq_some hmanifest
    exact .mirror i image hheld.identity hmirrors hmanifest (containerImages_eq_ok himages)
      hs.alone.1 hs.alone.2
  · rcases hs.kind with ⟨hr, htemplate, helevated, hcapabilities⟩ | ⟨hd, htemplate, -⟩
    · obtain ⟨d, hd, rfl⟩ := List.mem_map.mp hr.listed
      have hid := hdeployments.identity d hd
      have hrestricted := assertRestrictedSpec_eq_ok (hheld.restricted helevated)
      rw [hcapabilities] at hrestricted
      exact .deployment d.2 (hdeployments.mem_items hd)
        ((h.parentOf_deployment hd hpod).mp hr.parentOf_eq)
        (runsTemplate_of_standing hdeployments.nodup hd hid (h.deployment_pinned hd) htemplate himages
          hexpected) ⟨d.1, hid, hrestricted⟩
    · obtain ⟨u, -, hlookup⟩ := hd.owner
      obtain ⟨s, hs', -, rfl⟩ := identityByUid_lookup hlookup
      exact .daemonset s.2 (hdaemonsets.mem_items hs')
        ((h.parentOf_daemonset hs' hpod).mp hd.parentOf_eq)
        (runsTemplate_of_standing hdaemonsets.nodup hs' (hdaemonsets.identity s hs')
          (h.daemonset_pinned hs') htemplate himages hexpected)

end Accepted

/-- Each Pod of accepted captures runs the images its controller or its pin lists, and an
unprivileged one stays unprivileged in all of its containers. -/
theorem images_are_closed {pins : Pins} {captures : Captures F} (h : validate pins captures = .ok ()) :
    ∃ node p, productionNode captures = .ok node ∧ (p = cilium ∨ p = calico) ∧
      ∀ pod ∈ itemsOf captures "pods.json",
        Bounded pins p node.1 (itemsOf captures "deployments.json")
          (itemsOf captures "daemonsets.json") (itemsOf captures "replicasets.json") pod := by
  obtain ⟨p, c, chain, replicasets, tally, hinv⟩ := validate_eq_ok h
  exact ⟨c.node, p, hinv.established.node, hinv.established.provider, fun pod hpod =>
    hinv.bounded hpod⟩

theorem images_are_closed_sample : ∃ node p,
    productionNode (sampleCaptures (F := List Char) "main" []) = .ok node ∧ (p = cilium ∨ p = calico) ∧
      ∀ pod ∈ itemsOf (sampleCaptures (F := List Char) "main" []) "pods.json",
        Bounded samplePins p node.1 (itemsOf (sampleCaptures "main" []) "deployments.json")
          (itemsOf (sampleCaptures "main" []) "daemonsets.json")
          (itemsOf (sampleCaptures "main" []) "replicasets.json") pod :=
  images_are_closed sampleCaptures_validate

/-! ## What is not compared -/

/-- The containers of all three lists. -/
def containersOf (spec : Value F) : List (Value F) :=
  ["containers", "initContainers", "ephemeralContainers"].flatMap fun field =>
    match spec.get field with
    | .arr containers => containers
    | _ => []

/-- Whether each container of a Pod has the image the template lists under its name. -/
def runsByName (d pod : Value F) : Bool :=
  (containersOf (podSpec pod)).all fun container =>
    (containersOf (((d.get "spec").get "template").get "spec")).any fun c =>
      (c.get "name").eq (container.get "name") && (c.get "image").eq (container.get "image")

/-- Whether that holds of each Pod of a Deployment. -/
def ImagesByName (captures : Captures F) : Prop :=
  ∀ pod ∈ itemsOf captures "pods.json", ∀ d ∈ itemsOf captures "deployments.json",
    runsFor (itemsOf captures "replicasets.json") d pod = true → runsByName d pod = true

instance (captures : Captures F) : Decidable (ImagesByName captures) :=
  inferInstanceAs (Decidable (∀ _ ∈ _, _))

/-- A debugging container. -/
def ephemeral : List (String × Value F) :=
  [("ephemeralContainers", .arr [record [("image", .text "shell"), ("name", .text "debug")]])]

/-- A container may go by another name, and an ephemeral container may run another image. -/
theorem images_go_unnamed :
    (validate samplePins (sampleCaptures (F := List Char) "renamed" []) = .ok () ∧
      ¬ ImagesByName (sampleCaptures (F := List Char) "renamed" [])) ∧
    validate samplePins (sampleCaptures (F := List Char) "main" ephemeral) = .ok () ∧
      ¬ ImagesByName (sampleCaptures (F := List Char) "main" ephemeral) := by
  decide +kernel

end RuntimeInventory
