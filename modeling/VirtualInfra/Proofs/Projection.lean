import VirtualInfra.Projection
import VirtualInfra.Proofs.Compilation

namespace VirtualInfra

variable {World : Type} {c : Catalogue} {d : Defaults} {r : Request} {p : Platform World}
  {w w' : World}

namespace Request

open Text

/-- What a compiled spec tells a view of its machine. The resolved subnets and their attachments are
in the order of the interfaces. -/
structure Compiles (c : Catalogue) (d : Defaults) (r : Request)
    (resolved : List (Subnet × Assignment)) (attachments : List (Machine.Link × Machine.Nic))
    (spec : Machine.Spec) : Prop where
  resolves : List.Forall₂ (fun i a => i.Resolves c r.hints a.1 a.2) r.interfaces resolved
  attaches : List.Forall₂ Attaches resolved attachments
  links : spec.links = { name := d.managementNetwork, pod := true } :: attachments.map (·.1)
  nics : spec.nics = { name := d.managementNetwork, masquerade := true } :: attachments.map (·.2)
  paired : spec.links.map (·.name) = spec.nics.map (·.name)
  distinct : (spec.nics.map (·.name)).Nodup
  flavour : spec.label? Machine.flavourLabel = some r.flavour
  image : spec.label? Machine.imageLabel = some r.image
  manager : spec.labels.get? Machine.managerLabel = some d.manager
  runStrategy : spec.runStrategy = d.runStrategy

theorem ne_empty_of_check (h : r.check = .ok ()) : r.flavour ≠ "" ∧ r.image ≠ "" := by
  unfold check at h
  split at h
  · cases h
  · next hf =>
      split at h
      · cases h
      · next hi =>
          constructor
          · rintro he
            rw [he] at hf
            exact hf rfl
          · rintro he
            rw [he] at hi
            exact hi rfl

theorem compiles_of_run {spec : Machine.Spec}
    (h : (r.compile (p.host c) d).run w = (.ok spec, w')) :
    ∃ resolved attachments, Compiles c d r resolved attachments spec := by
  obtain ⟨-, f, i, resolved, profile, volume, attachments, hf, hspec⟩ := run_compile_eq_ok_iff.1 h
  have hd := hf.describes hspec
  obtain ⟨hflavour, himage⟩ := ne_empty_of_check hf.checked
  refine ⟨resolved, attachments, hf.resolves, hf.attaches, ?_, ?_, hd.paired, hd.distinct, ?_, ?_,
    hd.labels _, hd.runStrategy⟩
  · obtain ⟨-, -, -, rfl⟩ := Machine.Spec.assemble_eq_ok_iff.1 hspec
    rfl
  · obtain ⟨-, -, -, rfl⟩ := Machine.Spec.assemble_eq_ok_iff.1 hspec
    rfl
  · rw [Machine.Spec.label?, hd.labels]
    simp [Machine.flavourLabel, Machine.imageLabel, hflavour]
  · rw [Machine.Spec.label?, hd.labels]
    simp [himage]

theorem exists_get?_of_resolves {hints : List Hint} {is : List Interface}
    {resolved : List (Subnet × Assignment)}
    (h : List.Forall₂ (fun i a => i.Resolves c hints a.1 a.2) is resolved) :
    ∀ a ∈ resolved, ∃ id, c.subnets.get? id = some a.1 := by
  induction h with
  | nil => exact nofun
  | cons hi _ ih =>
      obtain ⟨id, -, hid, -⟩ := hi.selected
      exact List.forall_mem_cons.2 ⟨⟨id, hid⟩, ih⟩

/-- Flavour and image of the request are known again, whatever the run strategy has become. -/
theorem Compiles.identity {resolved : List (Subnet × Assignment)}
    {attachments : List (Machine.Link × Machine.Nic)} {spec : Machine.Spec}
    (h : Compiles c d r resolved attachments spec) (s : RunStrategy) :
    ({ spec with runStrategy := s } : Machine.Spec).identity = .ok (r.flavour, r.image) := by
  have hf : ({ spec with runStrategy := s } : Machine.Spec).label? Machine.flavourLabel =
      some r.flavour := h.flavour
  have hi : ({ spec with runStrategy := s } : Machine.Spec).label? Machine.imageLabel =
      some r.image := h.image
  simp only [Machine.Spec.identity, hf, hi]
  rfl

end Request

theorem find?_of_nodup {α : Type} {f : α → String} {as : List α} (h : (as.map f).Nodup) {a : α}
    (ha : a ∈ as) {k : String} (hk : f a = k) : as.find? (fun b => f b = k) = some a := by
  induction as with
  | nil => cases ha
  | cons b as ih =>
      obtain ⟨hb, hrest⟩ := List.nodup_cons.1 h
      rcases List.mem_cons.1 ha with rfl | ha
      · rw [List.find?_cons_of_pos]
        exact decide_eq_true hk
      · rw [List.find?_cons_of_neg, ih hrest ha]
        rw [decide_eq_true_eq]
        intro he
        exact hb (he.trans hk.symm ▸ List.mem_map_of_mem ha)

namespace Machine

theorem Created.of_project_eq_ok {created : Created} {spec : Spec} {resource : Resource}
    (h : created.project spec = .ok resource) :
    resource.id = created.uid ∧ resource.name = created.name := by
  obtain ⟨_, -, hr⟩ := Except.bind_eq_ok_iff.1 h
  cases hr
  exact ⟨rfl, rfl⟩

section Steps

variable {γ : Type} {host : Host World} {view : World → γ}

theorem keeps_projectNic (hc : ∀ {α : Type} (c : Call α), c.changes = false → host.Spares view c)
    (m : Machine) (live : Instance.Nic) : Act.Keeps view (projectNic host m live) := by
  rw [projectNic]
  split
  · exact .pure _
  · split
    · next link hlink =>
        refine .bind (.lift _) fun type => ?_
        rcases link.source? with _ | _ | name
        · exact .throw _
        · exact .pure _
        · exact (((hc _ rfl).race _).within _).bind fun s => .pure _
    · exact .throw _

theorem keeps_project (hc : ∀ {α : Type} (c : Call α), c.changes = false → host.Spares view c)
    (m : Machine) (i : Option Instance) : Act.Keeps view (m.project host i) := by
  have hnics (lives : List Instance.Nic) : Act.Keeps view (projectNics host m lives) := by
    induction lives with
    | nil => exact .pure _
    | cons live lives ih =>
        exact ((keeps_projectNic hc m live).within _).bind fun _ => ih.bind fun _ => .pure _
  exact .bind (.lift _) fun _ => (hnics _).bind fun _ => .pure _

theorem maps_projectNic (m : Machine) (live : Instance.Nic) (v : World) :
    Act.Maps (fun _ => v) (projectNic (p.host c) m live) (projectNic (p.host c) m live) := by
  rw [projectNic]
  cases m.spec.nic? live.name with
  | none => exact .pure _
  | some nic =>
      cases m.spec.link? live.name with
      | none => exact .throw _
      | some link =>
          refine .bind (.lift _) fun type => ?_
          rcases link.source? with _ | _ | name
          · exact .throw _
          · exact .pure _
          · exact ((p.maps_race_host c rfl _ v).within _).bind fun s => .pure _

theorem maps_project (m : Machine) (i : Option Instance) (v : World) :
    Act.Maps (fun _ => v) (m.project (p.host c) i) (m.project (p.host c) i) := by
  have hnics (lives : List Instance.Nic) :
      Act.Maps (fun _ => v) (projectNics (p.host c) m lives) (projectNics (p.host c) m lives) := by
    induction lives with
    | nil => exact .pure _
    | cons live lives ih =>
        exact ((maps_projectNic m live v).within _).bind fun _ => ih.bind fun _ => .pure _
  exact .bind (.lift _) fun _ => (hnics _).bind fun _ => .pure _

theorem follows_projectNic {Other : Type} {host : Host World} (h : host.FindsIn c)
    (q : Platform Other) (m : Machine) (live : Instance.Nic) :
    Act.Follows (projectNic host m live) (projectNic (q.host c) m live) := by
  unfold projectNic
  cases m.spec.nic? live.name with
  | none => exact .pure _
  | some nic =>
      cases m.spec.link? live.name with
      | none => exact .throw _
      | some link =>
          refine .bind (.lift _) fun type => ?_
          rcases link.source? with _ | _ | name
          · exact .throw _
          · exact .pure _
          · exact ((h.race rfl _ q).within _).bind fun s => .pure _

theorem follows_project {Other : Type} {host : Host World} (h : host.FindsIn c)
    (q : Platform Other) (m : Machine) (i : Option Instance) :
    Act.Follows (m.project host i) (m.project (q.host c) i) := by
  have hnics (lives : List Instance.Nic) :
      Act.Follows (projectNics host m lives) (projectNics (q.host c) m lives) := by
    induction lives with
    | nil => exact .pure _
    | cons live lives ih =>
        exact ((follows_projectNic h q m live).within _).bind fun _ => ih.bind fun _ => .pure _
  exact .bind (.lift _) fun _ => (hnics _).bind fun _ => .pure _

end Steps

section Strategies

variable {host : Host World} {m : Machine} {r : RunStrategy}

theorem operationalState_of_ne_halted (hr : r ≠ .halted) : operationalState r = .enabled := by
  cases r with
  | halted => exact absurd rfl hr
  | always | manual | rerunOnFailure | once => rfl

theorem runningState_of_ne_halted (hm : m.spec.runStrategy ≠ .halted) (hr : r ≠ .halted)
    (i : Option Instance) :
    runningState { m with spec := { m.spec with runStrategy := r } } i = m.runningState i := by
  unfold runningState
  rw [if_neg hr, if_neg hm]

theorem projectNics_runStrategy (lives : List Instance.Nic) :
    projectNics host { m with spec := { m.spec with runStrategy := r } } lives =
      projectNics host m lives := by
  induction lives with
  | nil => rfl
  | cons live lives ih =>
      rw [projectNics, ih]
      rfl

/-- Under all run strategies that keep it running, a machine is seen alike. -/
theorem project_of_ne_halted (hm : m.spec.runStrategy ≠ .halted) (hr : r ≠ .halted)
    (i : Option Instance) :
    project host { m with spec := { m.spec with runStrategy := r } } i = m.project host i := by
  rw [project]
  rw [project]
  rw [projectNics_runStrategy, runningState_of_ne_halted hm hr, operationalState_of_ne_halted hm,
    operationalState_of_ne_halted (r := r) hr]
  rfl

end Strategies

theorem Created.exists_project_eq_ok {resolved : List (Subnet × Assignment)}
    {attachments : List (Link × Nic)} {spec : Spec} {created : Created}
    (h : Request.Compiles c d r resolved attachments spec) (hl : created.labels = spec.labels) :
    ∃ resource, created.project spec = .ok resource := by
  have hid : ({ spec with labels := created.labels } : Spec).identity =
      .ok (r.flavour, r.image) := by
    rw [hl]
    exact h.identity spec.runStrategy
  exact ⟨_, Except.bind_eq_ok_iff.2 ⟨_, hid, rfl⟩⟩

variable {m : Machine}

section Interfaces

variable (live : Instance.Nic) {nic : Nic} {link : Link} (hnic : m.spec.nic? live.name = some nic) (hlink : m.spec.link? live.name = some link)

include hnic hlink

theorem run_projectNic_pod (hbound : nic.binding? = some .masquerade)
    (hsource : link.source? = some .pod) :
    (projectNic (p.host c) m live).run w = (.ok (some {
      id := live.name
      owner := m.uid
      network := none
      subnet := none
      addresses := if live.addresses = [] then live.address.toList else live.addresses
      mac := live.mac.or nic.mac
      type := .bridge
      metadata := .ofList [(managementKey, "true")] }), w) := by
  rw [projectNic]
  rw [hnic]
  simp only [hlink, nicType, hbound, hsource]
  rfl

theorem run_projectNic_attachment {name : String} {s : Subnet}
    (hbound : nic.binding? = some .bridge) (hsource : link.source? = some (.attachment name))
    (hsubnet : c.subnet (.byAttachment name) = .ok s) :
    (projectNic (p.host c) m live).run w = (.ok (some {
      id := live.name
      owner := m.uid
      network := s.parent
      subnet := some s.id
      addresses := if live.addresses = [] then live.address.toList else live.addresses
      mac := live.mac.or nic.mac
      type := .bridge
      metadata := ∅ }), w) := by
  rw [projectNic]
  rw [hnic]
  simp only [hlink, nicType, hbound, hsource]
  refine Act.run_bind_eq_ok_iff.2 ⟨.bridge, w, rfl, Act.run_bind_eq_ok_iff.2 ⟨s, w, ?_, rfl⟩⟩
  rw [Act.run_within, Platform.run_race_host]
  change (Fault.mark _ (c.subnet _), w) = _
  rw [hsubnet]
  rfl

end Interfaces

theorem run_projectNics_cons {live : Instance.Nic} {view : Resource.Nic} {lives : List Instance.Nic}
    {views : List Resource.Nic}
    (hview : (projectNic (p.host c) m live).run w = (.ok (some view), w))
    (hviews : (projectNics (p.host c) m lives).run w = (.ok views, w)) :
    (projectNics (p.host c) m (live :: lives)).run w = (.ok (view :: views), w) := by
  rw [projectNics]
  refine Act.run_bind_eq_ok_iff.2 ⟨some view, w, ?_, ?_⟩
  · rw [Act.run_within, hview]
    rfl
  · exact Act.run_bind_eq_ok_iff.2 ⟨views, w, hviews, rfl⟩

theorem run_project {i : Option Instance} {flavour image : String} {nics : List Resource.Nic}
    (hid : m.spec.identity = .ok (flavour, image))
    (hnics : (projectNics (p.host c) m (i.elim [] (·.nics))).run w = (.ok nics, w)) :
    (m.project (p.host c) i).run w = (.ok {
      id := m.uid
      name := m.spec.name
      flavour
      image
      nics
      host := i.bind (·.node)
      operational := operationalState m.spec.runStrategy
      running := runningState m i
      metadata := m.status.printable.elim m.spec.labels (m.spec.labels.insert statusKey) }, w) := by
  rw [project]
  refine Act.run_bind_eq_ok_iff.2 ⟨(flavour, image), w, ?_, ?_⟩
  · rw [Act.run_lift, hid]
  · exact Act.run_bind_eq_ok_iff.2 ⟨nics, w, hnics, rfl⟩

end Machine

end VirtualInfra
