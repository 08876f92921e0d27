import Mathlib.Data.List.Forall2
import Mathlib.Data.List.Nodup
import VirtualInfra.Compilation
import VirtualInfra.Proofs.Machine.Assembly
import VirtualInfra.Proofs.Resolution

namespace VirtualInfra.Request

open Text

variable {World World' Other γ : Type} {host : Host World} {host' : Host World'}

section Steps

variable {view : World → γ} {π : World' → World} {c : Catalogue}

theorem keeps_attachAll (hc : ∀ {α : Type} (c : Call α), c.changes = false → host.Spares view c)
    (hints : List Hint) (index : Nat) (is : List Interface) :
    Act.Keeps view (attachAll host hints index is) := by
  induction is generalizing index with
  | nil => exact .pure _
  | cons i is ih =>
      have hi : Act.Keeps view (i.attach host hints) :=
        (i.keeps_resolve hc hints).bind fun _ => .bind (.lift _) fun _ => .pure _
      exact (hi.within _).bind fun _ => (ih _).bind fun _ => .pure _

theorem keeps_compile (hc : ∀ {α : Type} (c : Call α), c.changes = false → host.Spares view c)
    (d : Defaults) (r : Request) : Act.Keeps view (r.compile host d) :=
  .bind (.lift _) fun _ => .bind (((hc _ rfl).race _).within _) fun _ =>
    .bind (((hc _ rfl).race _).within _) fun _ => .bind (.lift _) fun _ => .bind (.lift _) fun _ =>
    .bind (keeps_attachAll hc _ _ _) fun _ => .lift _

theorem maps_attachAll (h : host'.Covers π host) (hints : List Hint) (index : Nat)
    (is : List Interface) :
    Act.Maps π (attachAll host' hints index is) (attachAll host hints index is) := by
  induction is generalizing index with
  | nil => exact .pure _
  | cons i is ih =>
      have hi : Act.Maps π (i.attach host' hints) (i.attach host hints) :=
        (i.maps_resolve h hints).bind fun _ => .bind (.lift _) fun _ => .pure _
      exact (hi.within _).bind fun _ => (ih _).bind fun _ => .pure _

theorem maps_compile (h : host'.Covers π host) (d : Defaults) (r : Request) :
    Act.Maps π (r.compile host' d) (r.compile host d) :=
  .bind (.lift _) fun _ => .bind ((h.race _ _).within _) fun _ =>
    .bind ((h.race _ _).within _) fun _ => .bind (.lift _) fun _ => .bind (.lift _) fun _ =>
    .bind (maps_attachAll h _ _ _) fun _ => .lift _

theorem follows_attachAll (h : host.FindsIn c) (p : Platform Other) (hints : List Hint)
    (index : Nat) (is : List Interface) :
    Act.Follows (attachAll host hints index is) (attachAll (p.host c) hints index is) := by
  induction is generalizing index with
  | nil => exact .pure _
  | cons i is ih =>
      have hi : Act.Follows (i.attach host hints) (i.attach (p.host c) hints) :=
        (i.follows_resolve h p hints).bind fun _ => .bind (.lift _) fun _ => .pure _
      exact (hi.within _).bind fun _ => (ih _).bind fun _ => .pure _

/-- A spec that is compiled although the caller may cancel is the one that is compiled for a caller
that never does. -/
theorem follows_compile (h : host.FindsIn c) (p : Platform Other) (d : Defaults) (r : Request) :
    Act.Follows (r.compile host d) (r.compile (p.host c) d) :=
  .bind (.lift _) fun _ => .bind ((h.race rfl _ p).within _) fun _ =>
    .bind ((h.race rfl _ p).within _) fun _ => .bind (.lift _) fun _ => .bind (.lift _) fun _ =>
    .bind (follows_attachAll h p _ _ _) fun _ => .lift _

end Steps

variable {c : Catalogue} {d : Defaults} {r : Request} {p : Platform World} {w w' : World}

def Attaches (resolved : Subnet × Assignment) (attachment : Machine.Link × Machine.Nic) : Prop :=
  ∃ name attached, resolved.1.metadata.value? .subnet = some name ∧
    resolved.1.metadata.value? .attachment = some attached ∧
    attachment = ({ name, attachment := some attached },
      { name, bridge := true, mac := resolved.2.mac.map Mac.text })

theorem run_attach_eq_ok_iff {hints : List Hint} {i : Interface}
    {attachment : Machine.Link × Machine.Nic} :
    (i.attach (p.host c) hints).run w = (.ok attachment, w') ↔
      w' = w ∧ ∃ resolved : Subnet × Assignment,
        i.Resolves c hints resolved.1 resolved.2 ∧ Attaches resolved attachment := by
  unfold Interface.attach Attaches
  constructor
  · intro h
    obtain ⟨⟨s, a⟩, w₁, hr, h⟩ := Act.run_bind_eq_ok_iff.1 h
    obtain ⟨⟨link, nic⟩, w₂, ha, h⟩ := Act.run_bind_eq_ok_iff.1 h
    have hres := Interface.resolves_of_run hr
    rw [hres p w] at hr
    cases hr
    rw [Act.run_lift, Prod.mk.injEq] at ha
    obtain ⟨attached, name, hat, hn, rfl, rfl⟩ := Subnet.attachment_eq_ok_iff.1 ha.1
    obtain ⟨-, rfl⟩ := ha
    rw [Act.run_pure] at h
    cases h
    exact ⟨rfl, (s, a), hres, name, attached, hn, hat, rfl⟩
  · rintro ⟨rfl, ⟨s, a⟩, hres, name, attached, hn, hat, rfl⟩
    refine Act.run_bind_eq_ok_iff.2 ⟨(s, a), _, hres p _, ?_⟩
    refine Act.run_bind_eq_ok_iff.2 ⟨({ name, attachment := some attached }, { name, bridge := true }),
      w', ?_, rfl⟩
    rw [Act.run_lift, Subnet.attachment_eq_ok_iff.2 ⟨attached, name, hat, hn, rfl, rfl⟩]

theorem run_attachAll_eq_ok_iff {hints : List Hint} {index : Nat} {is : List Interface}
    {attachments : List (Machine.Link × Machine.Nic)} :
    (attachAll (p.host c) hints index is).run w = (.ok attachments, w') ↔
      w' = w ∧ ∃ resolved : List (Subnet × Assignment),
        List.Forall₂ (fun i a => i.Resolves c hints a.1 a.2) is resolved ∧
          List.Forall₂ Attaches resolved attachments := by
  induction is generalizing index attachments w' with
  | nil =>
      simp only [attachAll, Act.run_pure, Prod.mk.injEq, Except.ok.injEq, List.forall₂_nil_left_iff,
        exists_eq_left]
      exact ⟨fun ⟨ha, hw⟩ => ⟨hw.symm, ha.symm⟩, fun ⟨hw, ha⟩ => ⟨ha.symm, hw.symm⟩⟩
  | cons i is ih =>
      rw [attachAll]
      constructor
      · intro h
        obtain ⟨attachment, w₁, hi, h⟩ := Act.run_bind_eq_ok_iff.1 h
        obtain ⟨rest, w₂, hrest, h⟩ := Act.run_bind_eq_ok_iff.1 h
        cases h
        rw [Act.run_within, Prod.mk.injEq, Fault.mark_eq_ok_iff, ← Prod.mk.injEq] at hi
        obtain ⟨rfl, resolved, hres, hat⟩ := run_attach_eq_ok_iff.1 hi
        obtain ⟨rfl, others, hothers, hats⟩ := ih.1 hrest
        exact ⟨rfl, resolved :: others, .cons hres hothers, .cons hat hats⟩
      · rintro ⟨rfl, resolved, hres, hats⟩
        cases hres with
        | @cons _ resolved _ others hr hrs =>
            cases hats with
            | @cons _ attachment _ rest hat hats =>
                refine Act.run_bind_eq_ok_iff.2 ⟨attachment, w', ?_, ?_⟩
                · rw [Act.run_within, run_attach_eq_ok_iff.2 ⟨rfl, _, hr, hat⟩]
                  rfl
                · exact Act.run_bind_eq_ok_iff.2 ⟨rest, w', ih.2 ⟨rfl, _, hrs, hats⟩, rfl⟩

structure Found (c : Catalogue) (d : Defaults) (r : Request) (f : Flavour) (i : Image)
    (resolved : List (Subnet × Assignment)) (profile : Machine.Profile) (volume : Machine.BootVolume)
    (attachments : List (Machine.Link × Machine.Nic)) : Prop where
  checked : r.check = .ok ()
  flavour : c.flavours.get? r.flavour = some f
  image : c.images.get? r.image = some i
  volume : i.bootVolume (r.machineName i d) d = .ok volume
  profile : f.profile d = .ok profile
  resolves : List.Forall₂ (fun i a => i.Resolves c r.hints a.1 a.2) r.interfaces resolved
  attaches : List.Forall₂ Attaches resolved attachments

theorem run_compile_eq_ok_iff {spec : Machine.Spec} :
    (r.compile (p.host c) d).run w = (.ok spec, w') ↔
      w' = w ∧ ∃ f i resolved profile volume attachments,
        Found c d r f i resolved profile volume attachments ∧
          Machine.Spec.assemble (r.machineName i d) r profile volume attachments d = .ok spec := by
  rw [compile]
  constructor
  · intro h
    obtain ⟨⟨⟩, w₁, hcheck, h⟩ := Act.run_bind_eq_ok_iff.1 h
    obtain ⟨f, w₂, hf, h⟩ := Act.run_bind_eq_ok_iff.1 h
    obtain ⟨i, w₃, hi, h⟩ := Act.run_bind_eq_ok_iff.1 h
    obtain ⟨volume, w₄, hv, h⟩ := Act.run_bind_eq_ok_iff.1 h
    obtain ⟨profile, w₅, hp, h⟩ := Act.run_bind_eq_ok_iff.1 h
    obtain ⟨attachments, w₆, ha, hspec⟩ := Act.run_bind_eq_ok_iff.1 h
    simp only [Act.run_lift, Act.run_within, Platform.run_race_host, Prod.mk.injEq,
      Fault.mark_eq_ok_iff] at hcheck hf hi hv hp hspec
    obtain ⟨hcheck, rfl⟩ := hcheck
    obtain ⟨hf, rfl⟩ := hf
    obtain ⟨hi, rfl⟩ := hi
    obtain ⟨hv, rfl⟩ := hv
    obtain ⟨hp, rfl⟩ := hp
    obtain ⟨rfl, resolved, hres, hat⟩ := run_attachAll_eq_ok_iff.1 ha
    exact ⟨hspec.2.symm, f, i, resolved, profile, volume, attachments,
      ⟨hcheck, Catalogue.found_eq_ok_iff.1 hf, Catalogue.found_eq_ok_iff.1 hi, hv, hp, hres, hat⟩,
      hspec.1⟩
  · rintro ⟨rfl, f, i, resolved, profile, volume, attachments, h, hspec⟩
    refine Act.run_bind_eq_ok_iff.2 ⟨(), w', ?_, ?_⟩
    · rw [Act.run_lift, h.checked]
    refine Act.run_bind_eq_ok_iff.2 ⟨f, w', ?_, ?_⟩
    · rw [Act.run_within, Platform.run_race_host, Prod.mk.injEq, Fault.mark_eq_ok_iff]
      exact ⟨Catalogue.found_eq_ok_iff.2 h.flavour, rfl⟩
    refine Act.run_bind_eq_ok_iff.2 ⟨i, w', ?_, ?_⟩
    · rw [Act.run_within, Platform.run_race_host, Prod.mk.injEq, Fault.mark_eq_ok_iff]
      exact ⟨Catalogue.found_eq_ok_iff.2 h.image, rfl⟩
    refine Act.run_bind_eq_ok_iff.2 ⟨volume, w', ?_, ?_⟩
    · rw [Act.run_lift, h.volume]
      rfl
    refine Act.run_bind_eq_ok_iff.2 ⟨profile, w', ?_, ?_⟩
    · rw [Act.run_lift, h.profile]
      rfl
    refine Act.run_bind_eq_ok_iff.2 ⟨attachments, w', ?_, ?_⟩
    · exact run_attachAll_eq_ok_iff.2 ⟨rfl, resolved, h.resolves, h.attaches⟩
    · rw [Act.run_lift, hspec]

/-- What a request needs to be compiled: a flavour that fits, an image that can be booted from, a
subnet with both its names for every interface, and network names of which no two are the same. -/
structure Compilable (c : Catalogue) (d : Defaults) (r : Request) (f : Flavour) (i : Image)
    (resolved : List (Subnet × Assignment)) : Prop where
  checked : r.check = .ok ()
  flavour : c.flavours.get? r.flavour = some f
  source : f.metadata.value? .source = some d.flavourSource
  instancetype : (f.metadata.value? .instancetype).isSome
  image : c.images.get? r.image = some i
  imageNamed : isBlankText i.name = false
  imageSized : 0 < i.size
  resolves : List.Forall₂ (fun i a => i.Resolves c r.hints a.1 a.2) r.interfaces resolved
  subnetNamed : ∀ a ∈ resolved, (a.1.metadata.value? .attachment).isSome ∧
    (a.1.metadata.value? .subnet).isSome
  managementNamed : isBlankText d.managementNetwork = false
  distinct : (some d.managementNetwork :: resolved.map (·.1.metadata.value? .subnet)).Nodup

structure Describes (c : Catalogue) (d : Defaults) (r : Request) (f : Flavour) (i : Image)
    (resolved : List (Subnet × Assignment)) (spec : Machine.Spec) : Prop where
  name : spec.name = r.machineName i d
  space : spec.space = d.space
  runStrategy : spec.runStrategy = d.runStrategy
  labels : ∀ key, spec.labels.get? key =
    if key = Machine.imageLabel then some r.image
    else if key = Machine.flavourLabel then some r.flavour
    else if key = Machine.managerLabel then some d.manager
    else none
  instancetype : spec.instancetype.kind = d.instancetypeKind ∧
    f.metadata.value? .instancetype = some spec.instancetype.name
  preference : spec.preference = ((f.metadata.value? .preference).filter Machine.isObjectName).map
    fun name => ⟨d.preferenceKind, name⟩
  volumes : spec.volumes = [{
    name := d.volumeName ⟨spec.name, i.name, i.id⟩
    storage := i.size
    source := i.source.getD (.claim d.imageSpace i.id) }]
  drives : spec.drives = spec.volumes.map fun v => ⟨v.name, v.name⟩
  links_length : spec.links.length = r.interfaces.length + 1
  nics_length : spec.nics.length = r.interfaces.length + 1
  paired : spec.links.map (·.name) = spec.nics.map (·.name)
  distinct : (spec.nics.map (·.name)).Nodup
  first : spec.links[0]? = some { name := d.managementNetwork, pod := true } ∧
    spec.nics[0]? = some { name := d.managementNetwork, masquerade := true }
  next : ∀ k i a, r.interfaces[k]? = some i → resolved[k]? = some a →
    ∃ name attached id mac,
      a.1.metadata.value? .subnet = some name ∧ a.1.metadata.value? .attachment = some attached ∧
      i.selected? r.hints = some id ∧ c.subnets.get? id = some a.1 ∧
      HintedMac (subnetHint? r.hints id) mac ∧
      spec.links[k + 1]? = some { name, attachment := some attached } ∧
      spec.nics[k + 1]? = some { name, bridge := true, mac := mac.map Mac.text }

section Parts

variable {f : Flavour} {i : Image} {resolved : List (Subnet × Assignment)}
  {profile : Machine.Profile} {volume : Machine.BootVolume}
  {attachments : List (Machine.Link × Machine.Nic)} {spec : Machine.Spec}

theorem exists_getElem?_of_forall₂ {α β : Type} {R : α → β → Prop} {as : List α} {bs : List β}
    (h : List.Forall₂ R as bs) {k : Nat} {a : α} (ha : as[k]? = some a) :
    ∃ b, bs[k]? = some b ∧ R a b := by
  induction h generalizing k with
  | nil => cases ha
  | @cons _ b _ bs hab _ ih =>
      cases k with
      | zero =>
          cases ha
          exact ⟨b, rfl, hab⟩
      | succ k => exact ih ha

theorem names_of_attaches (h : List.Forall₂ Attaches resolved attachments) :
    (∀ a ∈ attachments, a.1.name = a.2.name) ∧
      attachments.map (fun a => some a.1.name) =
        resolved.map (·.1.metadata.value? .subnet) := by
  induction h with
  | nil => simp
  | cons ha _ ih =>
      obtain ⟨name, attached, hn, -, rfl⟩ := ha
      exact ⟨List.forall_mem_cons.2 ⟨rfl, ih.1⟩, by simp [hn, ih.2]⟩

theorem exists_attaches (h : ∀ a ∈ resolved, (a.1.metadata.value? .attachment).isSome ∧
    (a.1.metadata.value? .subnet).isSome) :
    ∃ attachments, List.Forall₂ Attaches resolved attachments := by
  refine List.exists_forall₂_iff.2 fun a hmem => ?_
  obtain ⟨ha, hs⟩ := h a hmem
  obtain ⟨attached, ha⟩ := Option.isSome_iff_exists.1 ha
  obtain ⟨name, hs⟩ := Option.isSome_iff_exists.1 hs
  exact ⟨_, name, attached, hs, ha, rfl⟩

theorem subnetNamed_of_attaches (h : List.Forall₂ Attaches resolved attachments) :
    ∀ a ∈ resolved, (a.1.metadata.value? .attachment).isSome ∧
      (a.1.metadata.value? .subnet).isSome := by
  induction h with
  | nil => simp
  | cons ha _ ih =>
      obtain ⟨name, attached, hn, hat, -⟩ := ha
      exact List.forall_mem_cons.2 ⟨by simp [hn, hat], ih⟩

theorem nodup_names_iff (h : List.Forall₂ Attaches resolved attachments) (name : String) :
    (name :: attachments.map (·.1.name)).Nodup ↔
      (some name :: resolved.map (·.1.metadata.value? .subnet)).Nodup := by
  have hinj : Function.Injective (some : String → Option String) := fun _ _ he => Option.some.inj he
  rw [← (names_of_attaches h).2, ← List.nodup_map_iff hinj]
  simp [Function.comp_def]

theorem Found.compilable (h : Found c d r f i resolved profile volume attachments)
    (hspec : Machine.Spec.assemble (r.machineName i d) r profile volume attachments d = .ok spec) :
    Compilable c d r f i resolved := by
  obtain ⟨hs, n, hn, -⟩ := Flavour.profile_eq_ok_iff.1 h.profile
  obtain ⟨hb, hz, -⟩ := Image.bootVolume_eq_ok_iff.1 h.volume
  obtain ⟨hm, -, hd, -⟩ := Machine.Spec.assemble_eq_ok_iff.1 hspec
  exact {
    checked := h.checked
    flavour := h.flavour
    source := hs
    instancetype := by simp [hn]
    image := h.image
    imageNamed := hb
    imageSized := hz
    resolves := h.resolves
    subnetNamed := subnetNamed_of_attaches h.attaches
    managementNamed := hm
    distinct := (nodup_names_iff h.attaches _).1 hd }

theorem Compilable.found (h : Compilable c d r f i resolved) :
    ∃ profile volume attachments spec, Found c d r f i resolved profile volume attachments ∧
      Machine.Spec.assemble (r.machineName i d) r profile volume attachments d = .ok spec := by
  obtain ⟨n, hn⟩ := Option.isSome_iff_exists.1 h.instancetype
  obtain ⟨attachments, hat⟩ := exists_attaches h.subnetNamed
  have hprofile := Flavour.profile_eq_ok_iff.2 ⟨h.source, n, hn, rfl⟩
  have hvolume : i.bootVolume (r.machineName i d) d = .ok _ :=
    Image.bootVolume_eq_ok_iff.2 ⟨h.imageNamed, h.imageSized, rfl⟩
  refine ⟨_, _, attachments, _, ⟨h.checked, h.flavour, h.image, hvolume, hprofile, h.resolves, hat⟩,
    Machine.Spec.assemble_eq_ok_iff.2 ⟨h.managementNamed, (names_of_attaches hat).1, ?_, rfl⟩⟩
  exact (nodup_names_iff hat _).2 h.distinct

theorem Found.describes (h : Found c d r f i resolved profile volume attachments)
    (hspec : Machine.Spec.assemble (r.machineName i d) r profile volume attachments d = .ok spec) :
    Describes c d r f i resolved spec := by
  obtain ⟨-, n, hn, rfl⟩ := Flavour.profile_eq_ok_iff.1 h.profile
  obtain ⟨-, -, rfl⟩ := Image.bootVolume_eq_ok_iff.1 h.volume
  obtain ⟨-, hpair, hd, rfl⟩ := Machine.Spec.assemble_eq_ok_iff.1 hspec
  have hlength : attachments.length = r.interfaces.length := by
    rw [← h.attaches.length_eq, h.resolves.length_eq]
  have hnames : attachments.map (·.2.name) = attachments.map (·.1.name) :=
    List.map_congr_left fun a ha => (hpair a ha).symm
  refine {
    name := rfl
    space := rfl
    runStrategy := rfl
    labels := r.get?_labels d
    instancetype := ⟨rfl, hn⟩
    preference := rfl
    volumes := rfl
    drives := rfl
    links_length := by simp [Machine.Spec.ofParts, hlength]
    nics_length := by simp [Machine.Spec.ofParts, hlength]
    paired := by simp [Machine.Spec.ofParts, Function.comp_def, hnames]
    distinct := by simpa [Machine.Spec.ofParts, Function.comp_def, hnames] using hd
    first := ⟨rfl, rfl⟩
    next := ?_ }
  intro k i a hi ha
  obtain ⟨a', ha', hres⟩ := exists_getElem?_of_forall₂ h.resolves hi
  obtain ⟨attachment, hat, name, attached, hname, hattached, rfl⟩ :=
    exists_getElem?_of_forall₂ h.attaches ha
  cases ha.symm.trans ha'
  obtain ⟨id, hsel, hsub, -, mac, hmac, hassigned⟩ := hres.selected
  refine ⟨name, attached, id, mac, hname, hattached, hsel, hsub, hmac, ?_, ?_⟩
  · simp [Machine.Spec.ofParts, hat]
  · simp [Machine.Spec.ofParts, hat, hassigned]

end Parts

/-- A request compiles exactly when all that it needs is there, and the spec then says what the
request asks for, interface by interface. -/
theorem compile_succeeds_iff_compilable (c : Catalogue) (d : Defaults) (r : Request)
    (p : Platform World) (w : World) :
    ((∃ spec, ((r.compile (p.host c) d).run w).1 = .ok spec) ↔
      ∃ f i resolved, Compilable c d r f i resolved) ∧
    ∀ f i resolved spec, Compilable c d r f i resolved →
      ((r.compile (p.host c) d).run w).1 = .ok spec → Describes c d r f i resolved spec := by
  have hfound {spec : Machine.Spec} (h : ((r.compile (p.host c) d).run w).1 = .ok spec) :
      ∃ f i resolved profile volume attachments,
        Found c d r f i resolved profile volume attachments ∧
          Machine.Spec.assemble (r.machineName i d) r profile volume attachments d = .ok spec :=
    (run_compile_eq_ok_iff.1 (Prod.ext h rfl)).2
  have hrun {f i resolved} (h : Compilable c d r f i resolved) :
      ∃ spec, (r.compile (p.host c) d).run w = (.ok spec, w) ∧
        Describes c d r f i resolved spec := by
    obtain ⟨profile, volume, attachments, spec, hf, hspec⟩ := h.found
    exact ⟨spec, run_compile_eq_ok_iff.2 ⟨rfl, f, i, resolved, _, _, _, hf, hspec⟩,
      hf.describes hspec⟩
  refine ⟨⟨?_, ?_⟩, ?_⟩
  · rintro ⟨spec, h⟩
    obtain ⟨f, i, resolved, _, _, _, hf, hspec⟩ := hfound h
    exact ⟨f, i, resolved, hf.compilable hspec⟩
  · rintro ⟨f, i, resolved, h⟩
    obtain ⟨spec, hr, -⟩ := hrun h
    exact ⟨spec, by rw [hr]⟩
  · intro f i resolved spec h hs
    obtain ⟨spec', hr, hd⟩ := hrun h
    rw [hr] at hs
    cases hs
    exact hd

end VirtualInfra.Request
