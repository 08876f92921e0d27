import VirtualInfra.Proofs.Platform.OneNode

namespace VirtualInfra.Platform.OneNode

open Store

variable {w w' w₀ : OneNode} {t : Table Stored} {name volume : String} {m : Stored}
  {spec : Machine.Spec}

def UsesVolume (t : Table Stored) (volume : String) : Prop :=
  ∃ name m, t.get? name = some m ∧ m.machine.spec.hasVolume volume = true

def Clashes (t : Table Stored) (spec : Machine.Spec) : Prop :=
  (∃ m, t.get? spec.name = some m) ∨ ∃ v ∈ spec.volumes, UsesVolume t v.name

structure Exclusive (t : Table Stored) : Prop where
  named : ∀ name m, t.get? name = some m → m.machine.spec.name = name
  apart : ∀ name m name' m', t.get? name = some m → t.get? name' = some m' → name ≠ name' →
    ∀ v ∈ m.machine.spec.volumes, ∀ v' ∈ m'.machine.spec.volumes, v.name ≠ v'.name

theorem hasVolume_iff : spec.hasVolume volume = true ↔ ∃ v ∈ spec.volumes, v.name = volume := by
  rw [Machine.Spec.hasVolume]
  rw [List.any_eq_true]
  simp only [decide_eq_true_eq]

theorem clash?_eq_none_iff_not_clashes : clash? (specs t) spec = none ↔ ¬ Clashes t spec := by
  rw [clash?_eq_none_iff]
  constructor
  · rintro ⟨hname, hvolume⟩ (⟨m, hm⟩ | ⟨v, hv, name, m, hm, hu⟩)
    · exact hname _ (List.mem_map_of_mem (Table.get?_eq_some_iff_mem.1 hm)) rfl
    · have hfree := hvolume v hv _ (List.mem_map_of_mem (Table.get?_eq_some_iff_mem.1 hm))
      rw [hu] at hfree
      cases hfree
  · intro h
    constructor
    · rintro e he hname
      obtain ⟨⟨k, m⟩, hm, rfl⟩ := List.mem_map.1 he
      exact h (.inl ⟨m, hname ▸ Table.get?_eq_some_iff_mem.2 hm⟩)
    · rintro v hv e he
      obtain ⟨⟨k, m⟩, hm, rfl⟩ := List.mem_map.1 he
      rw [← Bool.not_eq_true]
      exact fun hu => h (.inr ⟨v, hv, k, m, Table.get?_eq_some_iff_mem.2 hm, hu⟩)

namespace Exclusive

theorem empty : Exclusive (∅ : Table Stored) where
  named _ _ h := by cases h
  apart _ _ _ _ h := by cases h

/-- What matters when a machine is put into the table: its name, and its boot volumes against those
of the others. -/
theorem insert (h : Exclusive t) (hname : m.machine.spec.name = name)
    (hapart : ∀ other m', other ≠ name → t.get? other = some m' →
      ∀ v ∈ m.machine.spec.volumes, ∀ v' ∈ m'.machine.spec.volumes, v.name ≠ v'.name) :
    Exclusive (t.insert name m) := by
  constructor
  · intro k m₁ hk
    rw [Table.get?_insert] at hk
    split at hk
    · next he =>
        cases hk
        exact hname.trans he.symm
    · exact h.named k m₁ hk
  · intro k m₁ k' m₂ hk hk' hne v hv v' hv'
    rw [Table.get?_insert] at hk hk'
    split at hk
    · next he =>
        cases hk
        split at hk'
        · next he' => exact absurd (he.trans he'.symm) hne
        · next he' => exact hapart k' m₂ he' hk' v hv v' hv'
    · next he =>
        split at hk'
        · cases hk'
          exact (hapart k m₁ he hk v' hv' v hv).symm
        · exact h.apart k m₁ k' m₂ hk hk' hne v hv v' hv'

theorem replace (h : Exclusive t) (hm : t.get? name = some m) {m' : Stored}
    (hname : m'.machine.spec.name = m.machine.spec.name)
    (hvolumes : m'.machine.spec.volumes = m.machine.spec.volumes) :
    Exclusive (t.insert name m') := by
  refine h.insert (hname.trans (h.named name m hm)) fun other m₂ hne hother => ?_
  rw [hvolumes]
  exact h.apart name m other m₂ hm hother hne.symm

theorem add (h : Exclusive t) (hfree : ¬ Clashes t spec) (hm : m.machine.spec = spec) :
    Exclusive (t.insert spec.name m) := by
  subst hm
  refine h.insert rfl fun other m' _ hother v hv v' hv' heq => ?_
  exact hfree (.inr ⟨v, hv, other, m', hother, hasVolume_iff.2 ⟨v', hv', heq.symm⟩⟩)

theorem erase (h : Exclusive t) (name : String) : Exclusive (t.erase name) := by
  constructor
  · intro k m hk
    rw [Table.get?_erase] at hk
    split at hk
    · cases hk
    · exact h.named k m hk
  · intro k m k' m' hk hk'
    rw [Table.get?_erase] at hk hk'
    split at hk
    · cases hk
    split at hk'
    · cases hk'
    exact h.apart k m k' m' hk hk'

theorem usesVolume_erase (h : Exclusive t) (hm : t.get? name = some m) :
    UsesVolume (t.erase name) volume ↔
      UsesVolume t volume ∧ m.machine.spec.hasVolume volume = false := by
  constructor
  · rintro ⟨other, m', hother, hu⟩
    rw [Table.get?_erase] at hother
    split at hother
    · cases hother
    · next hne =>
        refine ⟨⟨other, m', hother, hu⟩, ?_⟩
        rw [← Bool.not_eq_true]
        intro hown
        obtain ⟨v, hv, hvn⟩ := hasVolume_iff.1 hu
        obtain ⟨v', hv', hvn'⟩ := hasVolume_iff.1 hown
        exact h.apart other m' name m hother hm hne v hv v' hv' (hvn.trans hvn'.symm)
  · rintro ⟨⟨other, m', hother, hu⟩, hown⟩
    refine ⟨other, m', ?_, hu⟩
    rw [Table.get?_erase, if_neg, hother]
    rintro rfl
    rw [hm] at hother
    cases hother
    rw [hown] at hu
    cases hu

end Exclusive

/-- What a node can come to by calls that change it, each made at any time by any caller. -/
inductive Reaches (w₀ : OneNode) : OneNode → Prop
  | refl : Reaches w₀ w₀
  | later {w w' : OneNode} (h : Reaches w₀ w) (hl : w.Later w') : Reaches w₀ w'
  | create {w : OneNode} (h : Reaches w₀ w) (spec : Machine.Spec) :
      Reaches w₀ (platform.create spec w).2
  | setRunStrategy {w : OneNode} (h : Reaches w₀ w) (name : String) (r : RunStrategy) :
      Reaches w₀ (platform.setRunStrategy name r w).2
  | delete {w : OneNode} (h : Reaches w₀ w) (name : String) :
      Reaches w₀ (platform.delete name w).2

theorem exclusive_create (h : w.Holds t) (he : Exclusive t) (spec : Machine.Spec) :
    ∃ t', Holds (platform.create spec w).2 t' ∧ Exclusive t' := by
  rcases h.of_create (x := (platform.create spec w).1) rfl with ⟨-, -, h'⟩ | ⟨hc, created, -, -, -, h'⟩
  · exact ⟨t, h', he⟩
  · exact ⟨_, h', he.add (clash?_eq_none_iff_not_clashes.1 hc) (spec_stored _ _ _)⟩

theorem exclusive_setRunStrategy (h : w.Holds t) (he : Exclusive t) (name : String)
    (r : RunStrategy) :
    ∃ t', Holds (platform.setRunStrategy name r w).2 t' ∧ Exclusive t' := by
  rcases h.of_setRunStrategy (x := (platform.setRunStrategy name r w).1) rfl with ⟨-, h'⟩ | ⟨m, hm, h'⟩
  · exact ⟨t, h', he⟩
  · refine ⟨_, h', he.replace hm ?_ ?_⟩
    · rw [spec_applyRunStrategy]
    · rw [spec_applyRunStrategy]

theorem exclusive_delete (h : w.Holds t) (he : Exclusive t) (name : String) :
    ∃ t', Holds (platform.delete name w).2 t' ∧ Exclusive t' := by
  rcases h.of_delete (x := (platform.delete name w).1) rfl with ⟨-, -, h'⟩ | ⟨m, -, -, h'⟩
  · exact ⟨t, h', he⟩
  · exact ⟨_, h', he.erase name⟩

theorem exclusive_of_reaches (h₀ : w₀.IsNew) (h : Reaches w₀ w) :
    ∃ t, w.Holds t ∧ Exclusive t := by
  induction h with
  | refl => exact ⟨∅, h₀.holds, .empty⟩
  | later _ hl ih =>
      obtain ⟨t, h, he⟩ := ih
      exact ⟨t, h.later hl, he⟩
  | create _ spec ih =>
      obtain ⟨t, h, he⟩ := ih
      exact exclusive_create h he spec
  | setRunStrategy _ name r ih =>
      obtain ⟨t, h, he⟩ := ih
      exact exclusive_setRunStrategy h he name r
  | delete _ name ih =>
      obtain ⟨t, h, he⟩ := ih
      exact exclusive_delete h he name

/-- The machines are apart, and creating and deleting go by their names and boot volumes alone. -/
structure KeepsApart (w : OneNode) (t : Table Stored) : Prop where
  exclusive : Exclusive t
  refused : ∀ spec, (∃ f, (platform.create spec w).1 = .error f ∧ f.kind = .alreadyExists) ↔
    Clashes t spec
  created : ∀ spec, ¬ Clashes t spec →
    ∃ c w' st', platform.create spec w = (.ok c, w') ∧ w'.load = .ok st' ∧
      t.get? spec.name = none ∧
      ∃ m, m.machine.spec = spec ∧ ∀ other, st'.machines.get? other =
        if other = spec.name then some m else t.get? other
  deleted : ∀ name w', platform.delete name w = (.ok (), w') →
    ∃ m st', t.get? name = some m ∧ w'.load = .ok st' ∧
      (∀ other, st'.machines.get? other = if other = name then none else t.get? other) ∧
      ∀ volume, UsesVolume st'.machines volume ↔
        UsesVolume t volume ∧ m.machine.spec.hasVolume volume = false

theorem create_refused_iff (h : w.Holds t) :
    (∃ f, (platform.create spec w).1 = .error f ∧ f.kind = .alreadyExists) ↔ Clashes t spec := by
  rcases hrun : platform.create spec w with ⟨x, w'⟩
  rcases h.of_create hrun with ⟨hc, hf, -⟩ | ⟨hc, created, rfl, -⟩
  · have hclash : Clashes t spec := by
      by_contra hfree
      exact hc (clash?_eq_none_iff_not_clashes.2 hfree)
    exact ⟨fun _ => hclash, fun _ => hf⟩
  · constructor
    · rintro ⟨f, hf, -⟩
      cases hf
    · intro hclash
      exact absurd hclash (clash?_eq_none_iff_not_clashes.1 hc)

theorem keepsApart_of_holds (h : w.Holds t) (he : Exclusive t) : KeepsApart w t where
  exclusive := he
  refused spec := create_refused_iff h
  created spec hfree := by
    have hc := clash?_eq_none_iff_not_clashes.2 hfree
    obtain ⟨d, hd, h'⟩ := create_of_free h hc
    obtain ⟨st', hst', -, ht'⟩ := h'.load
    refine ⟨_, _, st', hd, hst', get?_eq_none_of_clash? hc, _,
      spec_stored w.now (w.fresh w.drawn) spec, fun other => ?_⟩
    rw [ht', Table.get?_insert]
  deleted name w' hw := by
    rcases h.of_delete hw with ⟨-, ⟨f, hf⟩, -⟩ | ⟨m, hm, -, h'⟩
    · cases hf
    · obtain ⟨st', hst', -, ht'⟩ := h'.load
      refine ⟨m, st', hm, hst', fun other => ?_, fun volume => ?_⟩
      · rw [ht', Table.get?_erase]
      · rw [ht']
        exact he.usesVolume_erase hm

/-- Whatever was called before, machines are kept under their own names and share no boot volume,
and a spec is refused as taken exactly when it would break this. -/
theorem keepsApart_of_reaches (h₀ : w₀.IsNew) (h : Reaches w₀ w) :
    ∃ st, w.load = .ok st ∧ KeepsApart w st.machines := by
  obtain ⟨t, ht, he⟩ := exclusive_of_reaches h₀ h
  obtain ⟨st, hst, -, rfl⟩ := ht.load
  exact ⟨st, hst, keepsApart_of_holds ht he⟩

def single : Machine.Spec where
  name := "vm"
  space := "default"
  labels := ∅
  runStrategy := .always
  instancetype := ⟨"VirtualMachineClusterInstancetype", "small"⟩
  preference := none
  volumes := [⟨"vm-disk", 1, .http "http://images/disk.img"⟩]
  links := []
  nics := []
  drives := [⟨"vm-disk", "vm-disk"⟩]

def neighbour : Machine.Spec :=
  { single with
    name := "web"
    volumes := [⟨"web-disk", 1, .http "http://images/disk.img"⟩]
    drives := [⟨"web-disk", "web-disk"⟩] }

/-- A machine that would boot from the volume of the first. -/
def squatter : Machine.Spec := { single with name := "other" }

theorem specs_insert (t : Table Stored) (name : String) (m : Stored) :
    specs (t.insert name m) = Table.insertEntry name m.machine.spec (specs t) :=
  Table.map_insertEntry (fun m : Stored => m.machine.spec) name m t.entries

theorem exists_created (h : w.Holds t) (hc : clash? (specs t) spec = none) :
    ∃ created w' t', platform.create spec w = (.ok created, w') ∧ w'.Holds t' ∧
      specs t' = Table.insertEntry spec.name spec (specs t) := by
  obtain ⟨d, hd, h'⟩ := create_of_free h hc
  exact ⟨_, _, _, hd, h', by rw [specs_insert, spec_stored]⟩

/-- Two machines are created, and a third is refused for the boot volume of the first. -/
theorem exists_refused : ∃ made made' w₁ w₂ w₃ t,
    platform.create single blank = (.ok made, w₁) ∧
    platform.create neighbour w₁ = (.ok made', w₂) ∧
    platform.create squatter w₂ = (.error (Fault.Cause.reported .alreadyExists
      (Fault.Cause.volumeTaken "vm-disk" "vm").message), w₃) ∧
    w₃.Holds t ∧ specs t = [("vm", single), ("web", neighbour)] := by
  have hfree : clash? [("vm", single)] neighbour = none := by decide
  have htaken : clash? [("vm", single), ("web", neighbour)] squatter =
      some (.volumeTaken "vm-disk" "vm") := by decide
  obtain ⟨made, w₁, t₁, hmade, h₁, hspecs₁⟩ :=
    exists_created isNew_blank.holds (clash?_specs_empty single)
  have hone : specs t₁ = [("vm", single)] := hspecs₁
  rw [← hone] at hfree
  obtain ⟨made', w₂, t₂, hmade', h₂, hspecs₂⟩ := exists_created h₁ hfree
  have hboth : specs t₂ = [("vm", single), ("web", neighbour)] := by
    rw [hspecs₂, hone]
    decide
  rw [← hboth] at htaken
  obtain ⟨_, hrefused, h₃⟩ := create_of_clash h₂ htaken
  exact ⟨made, made', w₁, w₂, _, t₂, hmade, hmade', hrefused, h₃, hboth⟩

theorem Reaches.of_create {x : Except Fault Machine.Created} (h : Reaches w₀ w)
    (hw : platform.create spec w = (x, w')) : Reaches w₀ w' := by
  have hcreate := h.create spec
  rw [hw] at hcreate
  exact hcreate

theorem keepsApart_of_refused : blank.IsNew ∧ ∃ made made' w₁ w₂ w₃ st,
    platform.create single blank = (.ok made, w₁) ∧
    platform.create neighbour w₁ = (.ok made', w₂) ∧
    platform.create squatter w₂ = (.error (Fault.Cause.reported .alreadyExists
      (Fault.Cause.volumeTaken "vm-disk" "vm").message), w₃) ∧
    Reaches blank w₃ ∧ w₃.load = .ok st ∧ kept st = [("vm", single), ("web", neighbour)] ∧
    KeepsApart w₃ st.machines := by
  obtain ⟨made, made', w₁, w₂, w₃, t, h₁, h₂, h₃, ht, hspecs⟩ := exists_refused
  have hreaches : Reaches blank w₃ := ((Reaches.refl.of_create h₁).of_create h₂).of_create h₃
  obtain ⟨st, hst, hapart⟩ := keepsApart_of_reaches isNew_blank hreaches
  obtain ⟨_, hst', -, rfl⟩ := ht.load
  obtain rfl := Except.ok.inj (hst.symm.trans hst')
  exact ⟨isNew_blank, made, made', w₁, w₂, w₃, st, h₁, h₂, h₃, hreaches, hst, hspecs, hapart⟩

end VirtualInfra.Platform.OneNode
