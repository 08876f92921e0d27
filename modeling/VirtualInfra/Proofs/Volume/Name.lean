import VirtualInfra.Proofs.Compilation
import VirtualInfra.Proofs.Platform.Exclusion
import VirtualInfra.Proofs.Volume.Pattern

namespace VirtualInfra

open Platform OneNode

/-- The second machine's name goes on behind a hyphen with what the first image's name begins with,
so that both pairs are written alike. -/
def RunsInto (machine image machine' image' : String) : Prop :=
  ∃ shared, machine' = machine ++ "-" ++ shared ∧ image = shared ++ "-" ++ image'

def Confusable (machine image machine' image' : String) : Prop :=
  RunsInto machine image machine' image' ∨ RunsInto machine' image' machine image

section Names

variable {a b a' b' : String}

/-- One of two alike pairs has the shorter first part, or they are the same. -/
theorem eq_or_runsInto {between : List Char} (ha : a'.toList = a.toList ++ between)
    (hb : '-' :: b.toList = between ++ '-' :: b'.toList) :
    a = a' ∧ b = b' ∨ RunsInto a b a' b' := by
  cases between with
  | nil =>
      rw [List.append_nil] at ha
      exact .inl ⟨String.toList_inj.1 ha.symm, String.toList_inj.1 (List.cons.inj hb).2⟩
  | cons c shared =>
      obtain ⟨rfl, hshared⟩ := List.cons.inj hb
      refine .inr ⟨.ofList shared, ?_, ?_⟩
      · apply String.toList_inj.1
        simp [ha]
      · apply String.toList_inj.1
        simpa using hshared

theorem hyphenated_eq_iff :
    a ++ "-" ++ b = a' ++ "-" ++ b' ↔ a = a' ∧ b = b' ∨ Confusable a b a' b' := by
  constructor
  · intro h
    have hlist : a.toList ++ '-' :: b.toList = a'.toList ++ '-' :: b'.toList := by
      simpa using congrArg String.toList h
    rcases List.append_eq_append_iff.1 hlist with ⟨between, ha, hb⟩ | ⟨between, ha, hb⟩
    · exact (eq_or_runsInto ha hb).imp id .inl
    · rcases eq_or_runsInto ha hb with ⟨rfl, rfl⟩ | h
      · exact .inl ⟨rfl, rfl⟩
      · exact .inr (.inr h)
  · rintro (⟨rfl, rfl⟩ | ⟨shared, rfl, rfl⟩ | ⟨shared, rfl, rfl⟩)
    · rfl
    · simp only [String.append_assoc]
    · simp only [String.append_assoc]

def defaultVolumeName (machine image : String) : String := machine ++ "-" ++ image ++ "-dv"

theorem volumeName_default (v : Defaults.Values) :
    ({} : Defaults).volumeName v = defaultVolumeName v.machine v.image := by
  have hpattern : ({} : Defaults).volumePattern.toList =
      Defaults.Placeholder.machine.text ++ '-' :: (Defaults.Placeholder.image.text ++ "-dv".toList) := by
    decide +kernel
  apply String.toList_inj.1
  rw [Defaults.volumeName, String.toList_ofList, hpattern, Defaults.expand_text_append]
  simp [Defaults.expand_text_append, Defaults.expand, defaultVolumeName, Defaults.Placeholder.value]

theorem defaultVolumeName_eq_iff : defaultVolumeName a b = defaultVolumeName a' b' ↔
    a = a' ∧ b = b' ∨ Confusable a b a' b' := by
  rw [← hyphenated_eq_iff, defaultVolumeName, defaultVolumeName]
  exact String.append_left_inj _

end Names

namespace Platform.OneNode

variable {w w₀ : OneNode} {t : Table Store.Stored} {m : Store.Stored} {spec : Machine.Spec}
  {i i' : Image} {owner : String} {cause : Fault.Cause}

/-- The machine was ordered with the built-in defaults, for a disk of the image. Its run strategy
may have been changed since. -/
def OrderedFor (i : Image) (spec : Machine.Spec) : Prop :=
  ∃ (c : Catalogue) (r : Request) (w : OneNode) (compiled : Machine.Spec) (s : RunStrategy),
    ((r.compile (platform.host c) {}).run w).1 = .ok compiled ∧ c.images.get? r.image = some i ∧
      spec = { compiled with runStrategy := s }

def RefusedFor (owner : String) (spec : Machine.Spec) (w : OneNode) : Prop :=
  ∃ volume ∈ spec.volumes, (platform.create spec w).1 =
    .error (Fault.Cause.reported .alreadyExists (Fault.Cause.volumeTaken volume.name owner).message)

theorem OrderedFor.volumes (h : OrderedFor i spec) :
    ∃ volume, spec.volumes = [volume] ∧ volume.name = defaultVolumeName spec.name i.name := by
  obtain ⟨c, r, w, compiled, s, hrun, hi, rfl⟩ := h
  obtain ⟨-, f, i', resolved, profile, volume, attachments, found, assembled⟩ :=
    Request.run_compile_eq_ok_iff.1 (Prod.ext hrun rfl)
  obtain rfl : i' = i := Option.some.inj (found.image.symm.trans hi)
  have hd := found.describes assembled
  refine ⟨_, hd.volumes, ?_⟩
  exact volumeName_default _

theorem OrderedFor.hasVolume_iff (h : OrderedFor i spec) {volume : String} :
    spec.hasVolume volume = true ↔ defaultVolumeName spec.name i.name = volume := by
  obtain ⟨v, hv, hname⟩ := h.volumes
  rw [OneNode.hasVolume_iff, hv, ← hname]
  simp

/-- A spec whose name is free can only be refused because of a volume, and the owner of that volume
is told. -/
theorem exists_owner_of_clash? (he : Exclusive t) (hfree : t.get? spec.name = none)
    (h : clash? (specs t) spec = some cause) :
    ∃ volume ∈ spec.volumes, ∃ owner m, t.get? owner = some m ∧
      m.machine.spec.hasVolume volume.name = true ∧ cause = .volumeTaken volume.name owner := by
  rw [clash?] at h
  split at h
  · next hany =>
      obtain ⟨e, hmem, hname⟩ := List.any_eq_true.1 hany
      obtain ⟨⟨name, m⟩, hm, rfl⟩ := List.mem_map.1 hmem
      rw [← of_decide_eq_true hname, Table.get?_eq_some_iff_mem.2 hm] at hfree
      cases hfree
  · obtain ⟨volume, hvolume, h⟩ := List.exists_of_findSome?_eq_some h
    obtain ⟨e, hfind, rfl⟩ := Option.map_eq_some_iff.1 h
    have huses := List.find?_some hfind
    obtain ⟨⟨owner, m⟩, hmem, rfl⟩ := List.mem_map.1 (List.mem_of_find?_eq_some hfind)
    have hm := Table.get?_eq_some_iff_mem.2 hmem
    refine ⟨volume, hvolume, owner, m, hm, huses, ?_⟩
    rw [he.named owner m hm]

theorem Exclusive.owner_eq (he : Exclusive t) {owner' volume : String} {m' : Store.Stored}
    (hm : t.get? owner = some m) (hm' : t.get? owner' = some m')
    (hv : m.machine.spec.hasVolume volume = true) (hv' : m'.machine.spec.hasVolume volume = true) :
    owner = owner' := by
  by_contra hne
  obtain ⟨v, hmem, hname⟩ := OneNode.hasVolume_iff.1 hv
  obtain ⟨v', hmem', hname'⟩ := OneNode.hasVolume_iff.1 hv'
  exact he.apart _ _ _ _ hm hm' hne v hmem v' hmem' (hname.trans hname'.symm)

theorem message_volumeTaken_inj {volume owner owner' : String}
    (h : (Fault.Cause.volumeTaken volume owner).message =
      (Fault.Cause.volumeTaken volume owner').message) : owner = owner' := by
  change "boot volume " ++ volume ++ " (owned by VM " ++ owner ++ ")" =
    "boot volume " ++ volume ++ " (owned by VM " ++ owner' ++ ")" at h
  rw [String.append_left_inj, String.append_right_inj] at h
  exact h

theorem refusedFor_iff {volume : Machine.BootVolume} (h : w.Holds t) (he : Exclusive t)
    (hfree : t.get? spec.name = none) (hv : spec.volumes = [volume]) (hm : t.get? owner = some m) :
    RefusedFor owner spec w ↔ m.machine.spec.hasVolume volume.name = true := by
  cases hc : clash? (specs t) spec with
  | none =>
      have hunused : ¬ m.machine.spec.hasVolume volume.name = true := by
        intro huses
        refine clash?_eq_none_iff_not_clashes.1 hc (.inr ⟨volume, ?_, owner, m, hm, huses⟩)
        rw [hv]
        exact List.mem_singleton_self volume
      refine ⟨?_, fun huses => absurd huses hunused⟩
      rintro ⟨_, -, hrefused⟩
      obtain ⟨disk, hcreated, -⟩ := create_of_free h hc
      rw [hcreated] at hrefused
      cases hrefused
  | some cause =>
      obtain ⟨v, hmem, owner', m', hm', huses', rfl⟩ := exists_owner_of_clash? he hfree hc
      rw [hv, List.mem_singleton] at hmem
      subst hmem
      obtain ⟨disk, hrefused, -⟩ := create_of_clash h hc
      rw [RefusedFor, hrefused, hv]
      constructor
      · rintro ⟨v', hmem, hmessage⟩
        rw [List.mem_singleton] at hmem
        subst hmem
        have hcause := congrArg Fault.cause (Except.error.inj hmessage)
        obtain rfl := message_volumeTaken_inj (Fault.Cause.reported.inj hcause).2
        rw [hm] at hm'
        cases hm'
        exact huses'
      · intro huses
        obtain rfl := he.owner_eq hm hm' huses huses'
        exact ⟨v, List.mem_singleton_self v, rfl⟩

/-- What the names of boot volumes tell when the machines were ordered with the built-in defaults:
the machine and the name of its image, unless one machine's name runs into the other's image. A
machine whose name is free is refused because of such a machine and no other. -/
structure TellsApart (w : OneNode) (t : Table Store.Stored) : Prop where
  volumes : ∀ (machine machine' : String) (i i' : Image) (volume volume' : Machine.BootVolume),
    i.bootVolume machine {} = .ok volume → i'.bootVolume machine' {} = .ok volume' →
      (volume.name = volume'.name ↔
        machine = machine' ∧ i.name = i'.name ∨ Confusable machine i.name machine' i'.name)
  refusals : ∀ spec i owner m i', OrderedFor i spec → t.get? spec.name = none →
    t.get? owner = some m → OrderedFor i' m.machine.spec →
      (RefusedFor owner spec w ↔ Confusable spec.name i.name owner i'.name)

theorem volume_name_eq_iff {machine machine' : String} {volume volume' : Machine.BootVolume}
    (h : i.bootVolume machine {} = .ok volume) (h' : i'.bootVolume machine' {} = .ok volume') :
    volume.name = volume'.name ↔
      machine = machine' ∧ i.name = i'.name ∨ Confusable machine i.name machine' i'.name := by
  obtain ⟨-, -, rfl⟩ := Image.bootVolume_eq_ok_iff.1 h
  obtain ⟨-, -, rfl⟩ := Image.bootVolume_eq_ok_iff.1 h'
  rw [volumeName_default, volumeName_default]
  exact defaultVolumeName_eq_iff

theorem refusedFor_iff_confusable (h : w.Holds t) (he : Exclusive t) (hs : OrderedFor i spec)
    (hfree : t.get? spec.name = none) (hm : t.get? owner = some m)
    (hs' : OrderedFor i' m.machine.spec) :
    RefusedFor owner spec w ↔ Confusable spec.name i.name owner i'.name := by
  obtain ⟨volume, hv, hname⟩ := hs.volumes
  have hother : spec.name ≠ owner := by
    rintro rfl
    rw [hm] at hfree
    cases hfree
  rw [refusedFor_iff h he hfree hv hm, hs'.hasVolume_iff, hname, he.named owner m hm, eq_comm,
    defaultVolumeName_eq_iff]
  exact ⟨fun h => h.resolve_left fun heq => hother heq.1, .inr⟩

theorem tellsApart_of_reaches (h₀ : w₀.IsNew) (h : Reaches w₀ w) :
    ∃ st, w.load = .ok st ∧ TellsApart w st.machines := by
  obtain ⟨t, ht, he⟩ := exclusive_of_reaches h₀ h
  obtain ⟨st, hst, -, rfl⟩ := ht.load
  refine ⟨st, hst, fun _ _ _ _ _ _ hv hv' => volume_name_eq_iff hv hv', ?_⟩
  intro spec i owner m i' hs hfree hm hs'
  exact refusedFor_iff_confusable ht he hs hfree hm hs'

section Twins

def twins : Catalogue where
  flavours := .ofList [("small", ⟨"small", none, none, .ofList [
    ("kubevim.io/source", "kubevirt"), ("kubevim.io/instancetype-name", "u1.small")]⟩)]
  images := .ofList [("server", ⟨"server", "server-linux", 1, none⟩),
    ("plain", ⟨"plain", "linux", 1, none⟩)]

def orderOf (image name : String) : Request where
  flavour := "small"
  image := image
  name := some name
  interfaces := []
  hints := []

theorem exists_orderedFor : ∃ i i' spec spec', OrderedFor i spec ∧ OrderedFor i' spec' ∧
    i.name = "linux" ∧ i'.name = "server-linux" ∧ spec.name = "db-server" ∧ spec'.name = "db" := by
  have hcompile : (((orderOf "plain" "db-server").compile (platform.host twins) {}).run blank).1.map
      (·.name) = .ok "db-server" := by
    decide +kernel
  have hcompile' : (((orderOf "server" "db").compile (platform.host twins) {}).run blank).1.map
      (·.name) = .ok "db" := by
    decide +kernel
  have himage : twins.images.get? "plain" = some ⟨"plain", "linux", 1, none⟩ := by decide +kernel
  have himage' : twins.images.get? "server" = some ⟨"server", "server-linux", 1, none⟩ := by
    decide +kernel
  obtain ⟨spec, hspec, hname⟩ := Except.map_eq_ok_iff.1 hcompile
  obtain ⟨spec', hspec', hname'⟩ := Except.map_eq_ok_iff.1 hcompile'
  exact ⟨_, _, spec, spec', ⟨twins, _, blank, spec, _, hspec, himage, rfl⟩,
    ⟨twins, _, blank, spec', _, hspec', himage', rfl⟩, rfl, rfl, hname, hname'⟩

/-- A machine `db` of the image `server-linux` stands in the way of a machine `db-server` of the
image `linux`. -/
theorem tellsApart_twins : blank.IsNew ∧ ∃ w st spec i owner m i', Reaches blank w ∧
    w.load = .ok st ∧ OrderedFor i spec ∧ st.machines.get? spec.name = none ∧
    st.machines.get? owner = some m ∧ OrderedFor i' m.machine.spec ∧
    Confusable spec.name i.name owner i'.name ∧ RefusedFor owner spec w := by
  obtain ⟨i, i', spec, spec', hs, hs', hi, hi', hname, hname'⟩ := exists_orderedFor
  obtain ⟨disk, hcreated, h⟩ := create_of_free isNew_blank.holds (clash?_specs_empty spec')
  have hreaches : Reaches blank (platform.create spec' blank).2 := .create .refl spec'
  obtain ⟨st, hst, happart⟩ := tellsApart_of_reaches isNew_blank hreaches
  rw [hcreated] at hreaches hst happart
  obtain ⟨st', hst', -, hmachines⟩ := h.load
  obtain rfl : st = st' := Except.ok.inj (hst.symm.trans hst')
  have hthere := Table.get?_insert_self (∅ : Table Store.Stored) spec'.name
    (stored blank.now (blank.fresh blank.drawn) spec')
  rw [← hmachines] at hthere
  have hfree : st.machines.get? spec.name = none := by
    rw [hmachines, Table.get?_insert, hname, hname']
    rfl
  have hconfusable : Confusable spec.name i.name spec'.name i'.name := by
    rw [hname, hname', hi, hi']
    exact .inr ⟨"server", rfl, rfl⟩
  have hs'' : OrderedFor i' (stored blank.now (blank.fresh blank.drawn) spec').machine.spec := by
    rw [spec_stored]
    exact hs'
  exact ⟨isNew_blank, _, st, spec, i, spec'.name, _, i', hreaches, hst, hs, hfree, hthere, hs'',
    hconfusable, (happart.refusals _ _ _ _ _ hs hfree hthere hs'').2 hconfusable⟩

/-- The name of a boot volume does not tell which hyphen stands between the machine and the image. -/
theorem not_machine_eq_of_volume_name : ¬ ∀ (machine machine' : String) (i i' : Image)
    (volume volume' : Machine.BootVolume), i.bootVolume machine {} = .ok volume →
      i'.bootVolume machine' {} = .ok volume' → volume.name = volume'.name →
        machine = machine' ∧ i.name = i'.name := by
  intro hall
  have hnamed : Text.isBlankText "server-linux" = false := by decide +kernel
  have hnamed' : Text.isBlankText "linux" = false := by decide +kernel
  have hvolume : Image.bootVolume ⟨"server", "server-linux", 1, none⟩ "db" {} = .ok _ :=
    Image.bootVolume_eq_ok_iff.2 ⟨hnamed, by decide, rfl⟩
  have hvolume' : Image.bootVolume ⟨"plain", "linux", 1, none⟩ "db-server" {} = .ok _ :=
    Image.bootVolume_eq_ok_iff.2 ⟨hnamed', by decide, rfl⟩
  have hconfusable : Confusable "db" "server-linux" "db-server" "linux" :=
    .inl ⟨"server", rfl, rfl⟩
  have heq := hall _ _ _ _ _ _ hvolume hvolume'
    ((volume_name_eq_iff hvolume hvolume').2 (.inr hconfusable))
  exact absurd heq.1 (by decide)

end Twins

end Platform.OneNode

end VirtualInfra
