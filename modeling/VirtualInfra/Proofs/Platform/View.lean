import VirtualInfra.Proofs.Platform.OneNode
import VirtualInfra.Proofs.Projection
import VirtualInfra.Service

namespace VirtualInfra.Platform.OneNode

open Store Request

variable {w : OneNode} {t : Table Stored} {name : String} {m : Stored} {r : RunStrategy}
  {now : Timestamp}

/-- Instance and status are what the run strategy asks for. -/
structure Settled (m : Stored) : Prop where
  running : m.running =
    if m.machine.spec.runStrategy = .halted then none else some (start m.machine)
  created : m.machine.status.created = true
  ready : m.machine.spec.runStrategy ≠ .halted → m.machine.status.ready = true
  printable : m.machine.spec.runStrategy ≠ .halted → m.machine.status.printable = some "Running"

/-- Any run strategy settles a machine whose instance, if it has one, is its own. -/
theorem settled_applyRunStrategy (hrunning : ∀ i ∈ m.running, i = start m.machine)
    (hcreated : m.machine.status.created = true) : Settled (applyRunStrategy now r m) := by
  rw [applyRunStrategy]
  by_cases h : r = .halted
  · rw [if_pos h]
    exact ⟨(if_pos h).symm, hcreated, fun hr => absurd h hr, fun hr => absurd h hr⟩
  · rw [if_neg h]
    refine ⟨?_, hcreated, fun _ => rfl, fun _ => rfl⟩
    change some _ = if r = .halted then none else _
    rw [if_neg h]
    cases hm : m.running with
    | none => rfl
    | some i =>
        rw [Option.getD_some, hrunning i hm]
        rfl

theorem settled_stored (uid : String) (spec : Machine.Spec) : Settled (stored now uid spec) :=
  settled_applyRunStrategy nofun rfl

theorem Settled.applyRunStrategy (h : Settled m) : Settled (applyRunStrategy now r m) := by
  refine settled_applyRunStrategy (fun i hi => ?_) h.created
  rw [h.running] at hi
  split at hi
  · cases hi
  · cases hi
    rfl

section Views

variable {c : Catalogue} {d : Defaults} {q : Request} {spec : Machine.Spec}
  {resolved : List (Subnet × Assignment)} {attachments : List (Machine.Link × Machine.Nic)}

theorem mac_startNic (uid : String) (n : Machine.Nic) :
    (startNic uid n).mac.or n.mac = some (n.mac.getD (derivedMac uid n.name).text) := rfl

def ShowsSubnet (a : Subnet × Assignment) (view : Resource.Nic) : Prop :=
  view.subnet = some a.1.id ∧ view.network = a.1.parent ∧
    ∀ mac, a.2.mac = some mac → view.mac = some mac.text

/-- Every attachment that is also in the spec is shown, in the order in which they come. -/
theorem run_projectNics_of_attaches {World : Type} {p : Platform World} {v : World}
    (hc : c.validate = .ok ()) (m : Machine) (uid : String)
    (hat : List.Forall₂ Attaches resolved attachments)
    (hfound : ∀ a ∈ resolved, ∃ id, c.subnets.get? id = some a.1)
    (hlinks : ∀ a ∈ attachments, a.1 ∈ m.spec.links)
    (hnics : ∀ a ∈ attachments, a.2 ∈ m.spec.nics)
    (hpaired : m.spec.links.map (·.name) = m.spec.nics.map (·.name))
    (hdistinct : (m.spec.nics.map (·.name)).Nodup) :
    ∃ views, (Machine.projectNics (p.host c) m
        ((attachments.map (·.2)).map (startNic uid))).run v = (.ok views, v) ∧
      List.Forall₂ ShowsSubnet resolved views := by
  induction hat with
  | nil => exact ⟨[], rfl, .nil⟩
  | @cons a attachment resolved attachments ha hat ih =>
      obtain ⟨views, hviews, hshown⟩ := ih
        (fun a ha => hfound a (List.mem_cons_of_mem _ ha))
        (fun a ha => hlinks a (List.mem_cons_of_mem _ ha))
        (fun a ha => hnics a (List.mem_cons_of_mem _ ha))
      obtain ⟨name, attached, -, hattached, rfl⟩ := ha
      obtain ⟨id, hid⟩ := hfound a List.mem_cons_self
      have hlink : m.spec.link? name = some { name, attachment := some attached } :=
        find?_of_nodup (f := Machine.Link.name) (hpaired ▸ hdistinct) (hlinks _ List.mem_cons_self)
          rfl
      have hnic : m.spec.nic? name =
          some { name, bridge := true, mac := a.2.mac.map Mac.text } :=
        find?_of_nodup (f := Machine.Nic.name) hdistinct (hnics _ List.mem_cons_self) rfl
      have hsubnet := c.subnet_byAttachment_of_validate hc hid hattached
      refine ⟨_, Machine.run_projectNics_cons (Machine.run_projectNic_attachment
        (startNic uid { name, bridge := true, mac := a.2.mac.map Mac.text })
        hnic hlink rfl rfl hsubnet) hviews, .cons ?_ hshown⟩
      refine ⟨rfl, rfl, fun mac hmac => (mac_startNic uid _).trans ?_⟩
      rw [hmac]
      rfl

def ShowsInterface (c : Catalogue) (hints : List Hint) (i : Interface) (view : Resource.Nic) : Prop :=
  ∃ id s mac, i.selected? hints = some id ∧ c.subnets.get? id = some s ∧
    HintedMac (subnetHint? hints id) mac ∧ i.Resolves c hints s { subnet := s.id, mac } ∧
    view.subnet = some s.id ∧ view.network = s.parent ∧ ∀ m, mac = some m → view.mac = some m.text

theorem showsInterface_of_resolves {hints : List Hint} {is : List Interface}
    {views : List Resource.Nic}
    (hres : List.Forall₂ (fun i a => i.Resolves c hints a.1 a.2) is resolved)
    (hshown : List.Forall₂ ShowsSubnet resolved views) :
    List.Forall₂ (ShowsInterface c hints) is views := by
  induction hres generalizing views with
  | nil =>
      cases hshown
      exact .nil
  | @cons i a is resolved hi _ ih =>
      cases hshown with
      | @cons _ view _ views hview hviews =>
          rcases a with ⟨s, a⟩
          obtain ⟨id, hid, hs, -, mac, hmac, ha⟩ := hi.selected
          change a = { subnet := s.id, mac } at ha
          subst ha
          exact .cons ⟨id, s, mac, hid, hs, hmac, hi, hview⟩ (ih hviews)

/-- The view of a machine that was made for a request: halted it shows nothing but that it is there,
and otherwise it runs on the node, with the management interface first and then one interface for
each entry of the request. -/
structure Mirrors (c : Catalogue) (q : Request) (uid name : String) (r : RunStrategy)
    (view : Resource) : Prop where
  id : view.id = uid
  name : view.name = name
  flavour : view.flavour = q.flavour
  image : view.image = q.image
  halted : r = .halted → view.operational = .disabled ∧ view.running = .stopped ∧
    view.host = none ∧ view.nics = []
  running : r ≠ .halted → view.operational = .enabled ∧ view.running = .running ∧
    view.host = some nodeName ∧
    ∃ management nics, view.nics = management :: nics ∧
      management.metadata.get? Machine.managementKey = some "true" ∧
      management.subnet = none ∧ management.network = none ∧
      List.Forall₂ (ShowsInterface c q.hints) q.interfaces nics

theorem Settled.runningState_start (h : Settled m) (hr : m.machine.spec.runStrategy ≠ .halted) :
    m.machine.runningState (some (start m.machine)) = .running := by
  have hword : decide (Text.asciiLower "Running" = "terminating") = false := by decide +kernel
  have hterminating : m.machine.status.isTerminating = false := by
    rw [Machine.Status.isTerminating, h.printable hr]
    exact hword
  have hpaused : (some (start m.machine)).any Instance.isPaused = false := rfl
  rw [Machine.runningState]
  rw [if_neg hr, hpaused, hterminating, if_neg Bool.false_ne_true, if_neg Bool.false_ne_true]
  exact if_pos ⟨h.created, h.ready hr⟩

section Made

variable {World : Type} {p : Platform World} {v : World}

/-- The instance of a compiled machine shows the management interface and then the others. -/
theorem run_projectNics_of_compiles (hc : c.validate = .ok ())
    (h : Compiles c d q resolved attachments spec) (m : Machine)
    (hm : m.spec = { spec with runStrategy := r }) :
    ∃ management views, (Machine.projectNics (p.host c) m (start m).nics).run v =
        (.ok (management :: views), v) ∧
      management.metadata.get? Machine.managementKey = some "true" ∧
      management.subnet = none ∧ management.network = none ∧
      List.Forall₂ (ShowsInterface c q.hints) q.interfaces views := by
  have hlinks := (congrArg Machine.Spec.links hm).trans h.links
  have hnics := (congrArg Machine.Spec.nics hm).trans h.nics
  have hpaired : m.spec.links.map (·.name) = m.spec.nics.map (·.name) := by
    rw [hm]
    exact h.paired
  have hdistinct : (m.spec.nics.map (·.name)).Nodup := by
    rw [hm]
    exact h.distinct
  obtain ⟨views, hviews, hshown⟩ := run_projectNics_of_attaches (p := p) (v := v) hc m m.uid
    h.attaches (exists_get?_of_resolves h.resolves)
    (fun a ha => hlinks ▸ List.mem_cons_of_mem _ (List.mem_map_of_mem ha))
    (fun a ha => hnics ▸ List.mem_cons_of_mem _ (List.mem_map_of_mem ha)) hpaired hdistinct
  have hlives : (start m).nics =
      startNic m.uid { name := d.managementNetwork, masquerade := true } ::
        (attachments.map (·.2)).map (startNic m.uid) := congrArg (List.map (startNic m.uid)) hnics
  have hlink : m.spec.link? d.managementNetwork =
      some { name := d.managementNetwork, pod := true } :=
    find?_of_nodup (f := Machine.Link.name) (hpaired ▸ hdistinct) (hlinks ▸ List.mem_cons_self) rfl
  have hnic : m.spec.nic? d.managementNetwork =
      some { name := d.managementNetwork, masquerade := true } :=
    find?_of_nodup (f := Machine.Nic.name) hdistinct (hnics ▸ List.mem_cons_self) rfl
  have hpod := Machine.run_projectNic_pod (p := p) (c := c) (w := v)
    (startNic m.uid { name := d.managementNetwork, masquerade := true }) hnic hlink rfl rfl
  rw [hlives]
  exact ⟨_, views, Machine.run_projectNics_cons hpod hviews, rfl, rfl, rfl,
    showsInterface_of_resolves h.resolves hshown⟩

theorem Settled.run_project_halted (hs : Settled m)
    (h : Compiles c d q resolved attachments spec)
    (hm : m.machine.spec = { spec with runStrategy := .halted }) :
    ∃ view, (m.machine.project (p.host c) m.running).run v = (.ok view, v) ∧
      Mirrors c q m.machine.uid spec.name .halted view := by
  have hid : m.machine.spec.identity = .ok (q.flavour, q.image) := hm ▸ h.identity .halted
  have hname : m.machine.spec.name = spec.name := by rw [hm]
  have hr : m.machine.spec.runStrategy = .halted := by rw [hm]
  have hnone : m.running = none := by rw [hs.running, if_pos hr]
  have hnics : (Machine.projectNics (p.host c) m.machine
      (m.running.elim [] (·.nics))).run v = (.ok [], v) := by
    rw [hnone]
    rfl
  refine ⟨_, Machine.run_project hid hnics, rfl, hname, rfl, rfl, fun _ => ⟨?_, ?_, ?_, rfl⟩,
    fun h => absurd rfl h⟩
  · change Machine.operationalState _ = _
    rw [hr]
    rfl
  · exact if_pos hr
  · change m.running.bind _ = _
    rw [hnone]
    rfl

theorem Settled.run_project_running (hs : Settled m) (hc : c.validate = .ok ())
    (h : Compiles c d q resolved attachments spec)
    (hm : m.machine.spec = { spec with runStrategy := r }) (hr : r ≠ .halted) :
    ∃ view, (m.machine.project (p.host c) m.running).run v = (.ok view, v) ∧
      Mirrors c q m.machine.uid spec.name r view := by
  have hid : m.machine.spec.identity = .ok (q.flavour, q.image) := hm ▸ h.identity r
  have hname : m.machine.spec.name = spec.name := by rw [hm]
  have hstrategy : m.machine.spec.runStrategy = r := by rw [hm]
  have hne : m.machine.spec.runStrategy ≠ .halted := hstrategy.trans_ne hr
  have hsome : m.running = some (start m.machine) := by rw [hs.running, if_neg hne]
  obtain ⟨management, views, hviews, hmanagement⟩ :=
    run_projectNics_of_compiles (p := p) (v := v) hc h m.machine hm
  have hnics : (Machine.projectNics (p.host c) m.machine
      (m.running.elim [] (·.nics))).run v = (.ok (management :: views), v) := by
    rw [hsome]
    exact hviews
  refine ⟨_, Machine.run_project hid hnics, rfl, hname, rfl, rfl, fun h => absurd h hr,
    fun _ => ⟨?_, ?_, ?_, management, views, rfl, hmanagement⟩⟩
  · exact Machine.operationalState_of_ne_halted hne
  · change m.machine.runningState m.running = _
    rw [hsome]
    exact hs.runningState_start hne
  · change m.running.bind _ = _
    rw [hsome]
    rfl

theorem Settled.run_project (hs : Settled m) (hc : c.validate = .ok ())
    (h : Compiles c d q resolved attachments spec)
    (hm : m.machine.spec = { spec with runStrategy := r }) :
    ∃ view, (m.machine.project (p.host c) m.running).run v = (.ok view, v) ∧
      Mirrors c q m.machine.uid spec.name r view := by
  by_cases hr : r = .halted
  · subst hr
    exact hs.run_project_halted h hm
  · exact hs.run_project_running hc h hm hr

end Made

end Views

end VirtualInfra.Platform.OneNode
