import Mathlib.Logic.Basic
import VirtualInfra.Machine.Assembly
import VirtualInfra.Proofs.Fault

namespace VirtualInfra

open Text

theorem Flavour.profile_eq_ok_iff {f : Flavour} {d : Defaults} {p : Machine.Profile} :
    f.profile d = .ok p ↔
      f.metadata.value? .source = some d.flavourSource ∧
        ∃ n, f.metadata.value? .instancetype = some n ∧
          p = {
            instancetype := ⟨d.instancetypeKind, n⟩
            preference := ((f.metadata.value? .preference).filter Machine.isObjectName).map
              fun name => ⟨d.preferenceKind, name⟩ } := by
  rw [profile]
  simp only [Except.bind_eq_ok_iff, Metadata.require_eq_ok_iff]
  constructor
  · rintro ⟨source, hs, h⟩
    by_cases he : source = d.flavourSource
    · rw [if_neg (not_not.2 he)] at h
      obtain ⟨n, hn, h⟩ := Except.bind_eq_ok_iff.1 h
      rw [Metadata.require_eq_ok_iff] at hn
      exact ⟨he ▸ hs, n, hn, (Except.pure_eq_ok_iff.1 h).symm⟩
    · rw [if_pos he] at h
      exact absurd h (by simp [bind, Except.bind, throw, throwThe, MonadExceptOf.throw])
  · rintro ⟨hs, n, hn, rfl⟩
    refine ⟨_, hs, ?_⟩
    rw [if_neg (not_not.2 rfl)]
    exact Except.bind_eq_ok_iff.2 ⟨n, Metadata.require_eq_ok_iff.2 hn, rfl⟩

theorem Image.bootVolume_eq_ok_iff {i : Image} {machine : String} {d : Defaults}
    {volume : Machine.BootVolume} :
    i.bootVolume machine d = .ok volume ↔
      isBlankText i.name = false ∧ 0 < i.size ∧
        volume = {
          name := d.volumeName ⟨machine, i.name, i.id⟩
          storage := i.size
          source := i.source.getD (.claim d.imageSpace i.id) } := by
  rw [bootVolume]
  rw [UInt64.pos_iff_ne_zero]
  split
  · simp [*]
  · split
    · simp [*]
    · simp [*, eq_comm]

theorem Subnet.attachment_eq_ok_iff {s : Subnet} {link : Machine.Link} {nic : Machine.Nic} :
    s.attachment = .ok (link, nic) ↔
      ∃ attachment name, s.metadata.value? .attachment = some attachment ∧
        s.metadata.value? .subnet = some name ∧
        link = { name, attachment := some attachment } ∧ nic = { name, bridge := true } := by
  rw [attachment]
  simp only [Except.bind_eq_ok_iff, Metadata.require_eq_ok_iff, Metadata.requireAll_eq_ok_iff,
    Except.pure_eq_ok_iff, Prod.mk.injEq]
  constructor
  · rintro ⟨_, -, a, ha, n, hn, rfl, rfl⟩
    exact ⟨a, n, ha, hn, rfl, rfl⟩
  · rintro ⟨a, n, ha, hn, rfl, rfl⟩
    refine ⟨(), ?_, a, ha, n, hn, rfl, rfl⟩
    simp [ha, hn]

namespace Machine

theorem management_eq_ok_iff {name : String} {link : Link} {nic : Nic} :
    management name = .ok (link, nic) ↔
      isBlankText name = false ∧ link = { name, pod := true } ∧ nic = { name, masquerade := true } := by
  unfold management Nic.bound
  split <;> simp [*, eq_comm]

theorem checkAttachments_eq_ok_iff {seen : List String} {attachments : List (Link × Nic)} :
    checkAttachments seen attachments = .ok () ↔
      (∀ a ∈ attachments, a.1.name = a.2.name) ∧ (attachments.map (·.1.name)).Nodup ∧
        ∀ a ∈ attachments, a.1.name ∉ seen := by
  induction attachments generalizing seen with
  | nil => simp [checkAttachments]
  | cons a rest ih =>
      obtain ⟨link, nic⟩ := a
      rw [checkAttachments, List.map_cons, List.nodup_cons, List.forall_mem_cons,
        List.forall_mem_cons]
      split
      case isTrue hne => simp [hne]
      case isFalse hname =>
        split
        case isTrue hseen => simp [hseen]
        case isFalse hseen =>
          rw [ih]
          simp only [List.mem_cons, not_or, List.mem_map, not_exists, not_and]
          constructor
          · rintro ⟨hp, hn, hs⟩
            exact ⟨⟨not_not.1 hname, hp⟩, ⟨fun x hx => (hs x hx).1, hn⟩, hseen,
              fun x hx => (hs x hx).2⟩
          · rintro ⟨⟨-, hp⟩, ⟨hl, hn⟩, -, hs⟩
            exact ⟨hp, hn, fun x hx => ⟨hl x hx, hs x hx⟩⟩

def Spec.ofParts (name : String) (r : Request) (profile : Profile) (volume : BootVolume)
    (attachments : List (Link × Nic)) (d : Defaults) : Spec where
  name
  space := d.space
  labels := r.labels d
  runStrategy := d.runStrategy
  instancetype := profile.instancetype
  preference := profile.preference
  volumes := [volume]
  links := { name := d.managementNetwork, pod := true } :: attachments.map (·.1)
  nics := { name := d.managementNetwork, masquerade := true } :: attachments.map (·.2)
  drives := [⟨volume.name, volume.name⟩]

theorem Spec.assemble_eq_ok_iff {name : String} {r : Request} {profile : Profile}
    {volume : BootVolume} {attachments : List (Link × Nic)} {d : Defaults} {spec : Spec} :
    assemble name r profile volume attachments d = .ok spec ↔
      isBlankText d.managementNetwork = false ∧
        (∀ a ∈ attachments, a.1.name = a.2.name) ∧
        (d.managementNetwork :: attachments.map (·.1.name)).Nodup ∧
        spec = ofParts name r profile volume attachments d := by
  rw [assemble]
  simp only [Except.bind_eq_ok_iff, Prod.exists, management_eq_ok_iff, List.nodup_cons,
    Except.pure_eq_ok_iff]
  constructor
  · rintro ⟨_, _, ⟨hb, rfl, rfl⟩, _, hc, rfl⟩
    obtain ⟨hp, hn, hs⟩ := checkAttachments_eq_ok_iff.1 hc
    refine ⟨hb, hp, ⟨fun hm => ?_, hn⟩, rfl⟩
    obtain ⟨a, ha, he⟩ := List.mem_map.1 hm
    exact hs a ha (List.mem_singleton.2 he)
  · rintro ⟨hb, hp, ⟨hm, hn⟩, rfl⟩
    refine ⟨_, _, ⟨hb, rfl, rfl⟩, (), ?_, rfl⟩
    refine checkAttachments_eq_ok_iff.2 ⟨hp, hn, fun a ha he => ?_⟩
    exact hm (List.mem_map.2 ⟨a, ha, List.mem_singleton.1 he⟩)

end Machine

theorem Request.get?_labels (r : Request) (d : Defaults) (key : String) :
    (r.labels d).get? key =
      if key = Machine.imageLabel then some r.image
      else if key = Machine.flavourLabel then some r.flavour
      else if key = Machine.managerLabel then some d.manager
      else none := by
  simp only [labels, Table.ofList, List.foldl_cons, List.foldl_nil, Table.get?_insert,
    Table.get?_empty]

end VirtualInfra
