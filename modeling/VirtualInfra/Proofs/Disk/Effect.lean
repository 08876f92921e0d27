import VirtualInfra.Disk.Change
import VirtualInfra.Proofs.Disk

namespace VirtualInfra

open Disk Way

namespace Way

variable {w : Way} {p q : Path} {name : String} {names : List String}

theorem mem_passed_iff :
    q ∈ passed p names ↔ ∃ front, front <+: names ∧ front.foldl advance p = q := by
  induction names generalizing p with
  | nil =>
      rw [passed, List.mem_singleton]
      constructor
      · rintro rfl
        exact ⟨[], List.nil_prefix, rfl⟩
      · rintro ⟨front, hf, rfl⟩
        rw [List.prefix_nil.1 hf]
        rfl
  | cons name names ih =>
      rw [passed, List.mem_cons, ih]
      constructor
      · rintro (rfl | ⟨front, hf, rfl⟩)
        · exact ⟨[], List.nil_prefix, rfl⟩
        · exact ⟨name :: front, List.cons_prefix_cons.2 ⟨rfl, hf⟩, rfl⟩
      · rintro ⟨front, hf, rfl⟩
        cases front with
        | nil => exact .inl rfl
        | cons n front =>
            obtain ⟨rfl, hfront⟩ := List.cons_prefix_cons.1 hf
            exact .inr ⟨front, hfront, rfl⟩

theorem passed_subset {front : List String} (h : front <+: names) :
    passed p front ⊆ passed p names := by
  intro q hq
  obtain ⟨f, hf, rfl⟩ := mem_passed_iff.1 hq
  exact mem_passed_iff.2 ⟨f, hf.trans h, rfl⟩

theorem path_child (h : IsName name) : (w.child name).path = w.path ++ [name] := by
  rw [path]
  rw [names_child h, List.foldl_append]
  exact if_neg h.ne_back

end Way

namespace Disk

variable {d d' d'' : Disk} {w source target : Way} {p q : Path} {e : Entry}
  {bytes : List UInt8}

def bytes? (d : Disk) (p : Path) : Option (List UInt8) :=
  match d.get? p with
  | some (.file bytes) => some bytes
  | _ => none

def found? (d : Disk) (w : Way) : Option Entry :=
  match d.find w with
  | .ok e => e
  | .error _ => none

/-- The second disk is the first one but for the entry at a path. -/
structure Sets (p : Path) (e : Option Entry) (d d' : Disk) : Prop where
  ne_root : p ≠ []
  entry : ∀ q, d'.get? q = if q = p then e else d.get? q

namespace Sets

variable {e e' : Option Entry}

theorem of_put {e : Entry} (h : p ≠ []) : Sets p (some e) d (d.put p e) := by
  refine ⟨h, fun q => ?_⟩
  by_cases hq : q = []
  · subst hq
    rw [if_neg h.symm]
    rfl
  · exact get?_put hq

theorem of_drop (h : p ≠ []) : Sets p none d (d.drop p) := by
  refine ⟨h, fun q => ?_⟩
  by_cases hq : q = []
  · subst hq
    rw [if_neg h.symm]
    rfl
  · exact get?_drop hq

theorem self (h : Sets p e d d') : d'.get? p = e := by
  rw [h.entry, if_pos rfl]

theorem other (h : Sets p e d d') (hq : q ≠ p) : d'.get? q = d.get? q := by
  rw [h.entry, if_neg hq]

theorem trans (h : Sets p e d d') (h' : Sets p e' d' d'') : Sets p e' d d'' := by
  refine ⟨h.ne_root, fun q => ?_⟩
  rw [h'.entry, h.entry]
  split <;> rfl

theorem spares (h : Sets p e d d') (hp : d.get? p ≠ some .directory) : d.Spares d' := by
  intro q hq
  rw [h.other, hq]
  rintro rfl
  exact hp hq

end Sets

/-- Directories were made at some of these paths, where nothing was, and nothing else changed. -/
def Grows (ps : List Path) (d d' : Disk) : Prop :=
  ∀ q, d'.get? q = d.get? q ∨ q ∈ ps ∧ d.get? q = none ∧ d'.get? q = some .directory

namespace Grows

variable {ps qs : List Path}

theorem refl (ps : List Path) (d : Disk) : Grows ps d d := fun _ => .inl rfl

theorem mono (h : Grows ps d d') (hs : ps ⊆ qs) : Grows qs d d' :=
  fun q => (h q).imp id fun ⟨hq, hd⟩ => ⟨hs hq, hd⟩

theorem trans (h : Grows ps d d') (h' : Grows ps d' d'') : Grows ps d d'' := by
  intro q
  rcases h q with hq | ⟨hq, hd, hd'⟩
  · rw [← hq]
    exact h' q
  · rcases h' q with hq' | ⟨-, hnone, -⟩
    · exact .inr ⟨hq, hd, hq'.trans hd'⟩
    · rw [hd'] at hnone
      cases hnone

theorem spares (h : Grows ps d d') : d.Spares d' := by
  intro q hq
  rcases h q with he | ⟨-, hnone, -⟩
  · rw [he, hq]
  · rw [hq] at hnone
    cases hnone

theorem file (h : Grows ps d d') (hq : d.get? q = some (.file bytes)) :
    d'.get? q = some (.file bytes) := by
  rcases h q with he | ⟨-, hnone, -⟩
  · rw [he, hq]
  · rw [hq] at hnone
    cases hnone

end Grows

/-- No directory went away, and no file changed but those at these paths. -/
structure Confined (ps : List Path) (d d' : Disk) : Prop where
  spares : d.Spares d'
  bytes : ∀ q, q ∉ ps → d'.bytes? q = d.bytes? q

namespace Confined

variable {ps qs : List Path}

theorem refl (ps : List Path) (d : Disk) : Confined ps d d := ⟨fun _ h => h, fun _ _ => rfl⟩

theorem mono (h : Confined ps d d') (hs : ps ⊆ qs) : Confined qs d d' :=
  ⟨h.spares, fun q hq => h.bytes q fun hp => hq (hs hp)⟩

theorem trans (h : Confined ps d d') (h' : Confined ps d' d'') : Confined ps d d'' :=
  ⟨fun q hq => h'.spares q (h.spares q hq), fun q hq => (h'.bytes q hq).trans (h.bytes q hq)⟩

theorem of_grows (h : Grows qs d d') : Confined [] d d' := by
  refine ⟨h.spares, fun q _ => ?_⟩
  unfold bytes?
  rcases h q with he | ⟨-, hnone, hd⟩
  · rw [he]
  · rw [hnone, hd]

theorem of_sets {e : Option Entry} (h : Sets p e d d') (hp : d.get? p ≠ some .directory) :
    Confined [p] d d' := by
  refine ⟨h.spares hp, fun q hq => ?_⟩
  unfold bytes?
  rw [h.other fun he => hq (List.mem_singleton.2 he)]

end Confined

theorem eq_foldl_of_foldlM_step {names : List String} (h : names.foldlM d.step p = .ok q) :
    q = names.foldl advance p := by
  induction names generalizing p with
  | nil =>
      cases h
      rfl
  | cons name names ih =>
      rw [List.foldlM_cons] at h
      obtain ⟨r, hr, h⟩ := Except.bind_eq_ok_iff.1 h
      obtain ⟨-, -, rfl⟩ := step_eq_ok_iff.1 hr
      exact ih h

theorem Leads.eq_path (h : d.Leads w p) : p = w.path := eq_foldl_of_foldlM_step h

theorem reach_eq_ok_iff : d.reach w = .ok p ↔
    w.size ≠ 0 ∧ w.size ≤ maxWaySize ∧ d.Leads w p ∧
      (w.meansDirectory = true → d.get? p = some .directory) := by
  rw [Disk.reach]
  by_cases h0 : w.size = 0
  · rw [if_pos h0]
    constructor
    · intro h
      cases h
    · intro h
      exact absurd h0 h.1
  by_cases hmax : maxWaySize < w.size
  · rw [if_neg h0, if_pos hmax]
    constructor
    · intro h
      cases h
    · intro h
      exact absurd h.2.1 (Nat.not_le.2 hmax)
  rw [if_neg h0, if_neg hmax]
  constructor
  · intro h
    obtain ⟨q, hq, h⟩ := Except.bind_eq_ok_iff.1 h
    cases hm : w.meansDirectory with
    | false =>
        rw [hm] at h
        cases h
        exact ⟨h0, Nat.not_lt.1 hmax, hq, fun h => absurd h Bool.false_ne_true⟩
    | true =>
        rw [hm] at h
        obtain ⟨⟨⟩, he, h⟩ := Except.bind_eq_ok_iff.1 h
        cases h
        exact ⟨h0, Nat.not_lt.1 hmax, hq, fun _ => enter_eq_ok_iff.1 he⟩
  · rintro ⟨-, -, hp, hm⟩
    refine Except.bind_eq_ok_iff.2 ⟨p, hp, ?_⟩
    split
    · next h => exact Except.bind_eq_ok_iff.2 ⟨(), enter_eq_ok_iff.2 (hm h), rfl⟩
    · rfl

theorem eq_path_of_reach (h : d.reach w = .ok p) : p = w.path :=
  (reach_eq_ok_iff.1 h).2.2.1.eq_path

theorem reach_of_spares (h : d.reach w = .ok p) (hs : d.Spares d') : d'.reach w = .ok p := by
  obtain ⟨hpos, hmax, hleads, hm⟩ := reach_eq_ok_iff.1 h
  exact reach_eq_ok_iff.2 ⟨hpos, hmax, hleads.spared hs, fun hw => hs p (hm hw)⟩

theorem ne_root_of_get? (h : d.get? p ≠ some .directory) : p ≠ [] := by
  rintro rfl
  exact h rfl

theorem get?_of_bytes? (h : d.bytes? p = some bytes) : d.get? p = some (.file bytes) := by
  unfold bytes? at h
  split at h
  · next hp =>
      cases h
      exact hp
  · cases h

theorem bytes?_of_get? (h : d.get? p = some (.file bytes)) : d.bytes? p = some bytes := by
  unfold bytes?
  rw [h]

theorem found?_of_reach (h : d.reach w = .ok p) : d.found? w = d.get? p := by
  unfold found? find
  rw [h]
  rfl

theorem found?_of_error {f : Failure} (h : d.reach w = .error f) : d.found? w = none := by
  unfold found? find
  rw [h]
  rfl

theorem reach_of_found? (h : d.found? w = some e) :
    d.reach w = .ok w.path ∧ d.get? w.path = some e := by
  cases hr : d.reach w with
  | error f =>
      rw [found?_of_error hr] at h
      cases h
  | ok p =>
      rw [found?_of_reach hr] at h
      obtain rfl := eq_path_of_reach hr
      exact ⟨rfl, h⟩

theorem find_of_found? (h : d.found? w = some e) : d.find w = .ok (some e) := by
  obtain ⟨hr, he⟩ := reach_of_found? h
  unfold find
  rw [hr]
  exact congrArg Except.ok he

theorem has_eq_isSome (d : Disk) (w : Way) : d.has w = (d.found? w).isSome := by
  unfold has found?
  cases d.find w with
  | error f => rfl
  | ok e => cases e <;> rfl

theorem readText_of_found? {text : String} (h : d.found? w = some (.file (Text.utf8 text))) :
    d.readText w = .ok text := by
  have hread : d.read w = .ok (Text.utf8 text) := by
    unfold Disk.read
    rw [find_of_found? h]
    rfl
  unfold Disk.readText
  rw [hread, Except.ok_bind, Text.ofUtf8?_utf8]
  rfl

theorem sets_of_overwrite (h : d.overwrite p bytes = .ok d') :
    d.get? p ≠ some .directory ∧ Sets p (some (.file bytes)) d d' := by
  rw [overwrite] at h
  split at h
  · cases h
  · next hp =>
      cases h
      exact ⟨hp, .of_put (ne_root_of_get? hp)⟩

theorem sets_of_write (h : d.write w bytes = .ok d') :
    d.reach w = .ok w.path ∧ d.get? w.path ≠ some .directory ∧
      Sets w.path (some (.file bytes)) d d' := by
  obtain ⟨p, hp, h⟩ := Except.bind_eq_ok_iff.1 h
  obtain rfl := eq_path_of_reach hp
  exact ⟨hp, sets_of_overwrite h⟩

theorem sets_of_create (h : d.create w e = .ok d') :
    d.reach w = .ok w.path ∧ d.get? w.path = none ∧ Sets w.path (some e) d d' := by
  obtain ⟨p, hp, h⟩ := Except.bind_eq_ok_iff.1 h
  obtain rfl := eq_path_of_reach hp
  split at h
  · cases h
  · next hnone =>
      cases h
      exact ⟨hp, hnone, .of_put (ne_root_of_get? (by rw [hnone]; nofun))⟩

theorem create_of_none (h : d.reach w = .ok p) (hp : d.get? p = none) :
    d.create w e = .ok (d.put p e) := by
  rw [create]
  rw [h, Except.ok_bind, hp]
  rfl

theorem create_of_some {e' : Entry} (h : d.reach w = .ok p) (hp : d.get? p = some e') :
    d.create w e = .error .occupied := by
  rw [create]
  rw [h, Except.ok_bind, hp]
  rfl

theorem sets_of_remove (h : d.remove w = .ok d') :
    d.reach w = .ok w.path ∧ (∃ bytes, d.get? w.path = some (.file bytes)) ∧
      Sets w.path none d d' := by
  obtain ⟨p, hp, h⟩ := Except.bind_eq_ok_iff.1 h
  obtain rfl := eq_path_of_reach hp
  split at h
  · next bytes hb =>
      cases h
      exact ⟨hp, ⟨bytes, hb⟩, .of_drop (ne_root_of_get? (by rw [hb]; nofun))⟩
  · cases h
  · cases h

theorem remove_of_file (h : d.reach w = .ok p) (hp : d.get? p = some (.file bytes)) :
    d.remove w = .ok (d.drop p) := by
  rw [remove]
  rw [h, Except.ok_bind, hp]
  rfl

theorem write_of_copy (h : d.copy source target = .ok d') :
    ∃ bytes, d.read source = .ok bytes ∧ d.write target bytes = .ok d' := by
  obtain ⟨e, he, h⟩ := Except.bind_eq_ok_iff.1 h
  split at h
  · next bytes =>
      refine ⟨bytes, ?_, h⟩
      unfold Disk.read
      rw [he]
      rfl
  · cases h
  · cases h

/-- The file is gone from where it was before it is put where it is moved to. -/
theorem sets_of_rename (h : d.rename source target = .ok d') :
    ∃ bytes d₁, d.get? source.path = some (.file bytes) ∧ d.reach target = .ok target.path ∧
      Sets source.path none d d₁ ∧ d₁.get? target.path ≠ some .directory ∧
      Sets target.path (some (.file bytes)) d₁ d' := by
  obtain ⟨p, hp, h⟩ := Except.bind_eq_ok_iff.1 h
  obtain ⟨q, hq, h⟩ := Except.bind_eq_ok_iff.1 h
  obtain rfl := eq_path_of_reach hp
  obtain rfl := eq_path_of_reach hq
  split at h
  · next bytes hb =>
      obtain ⟨hd, hs⟩ := sets_of_overwrite h
      exact ⟨bytes, _, hb, hq, .of_drop (ne_root_of_get? (by rw [hb]; nofun)), hd, hs⟩
  · cases h
  · cases h

section Making

variable {start : Path} {names : List String}

theorem grows_ensureDirectory (d : Disk) (w : Way) : Grows [w.path] d (d.ensureDirectory w).2 := by
  rw [ensureDirectory]
  split
  · exact .refl _ _
  · cases hc : d.create w .directory with
    | error f => exact .refl _ _
    | ok d' =>
        obtain ⟨-, hnone, hs⟩ := sets_of_create hc
        intro q
        by_cases hq : q = w.path
        · subst hq
          exact .inr ⟨List.mem_singleton_self _, hnone, hs.self⟩
        · exact .inl (hs.other hq)

theorem path_mem_passed (w : Way) : w.path ∈ passed w.start w.names :=
  mem_passed_iff.2 ⟨w.names, List.prefix_rfl, rfl⟩

theorem passed_parent_subset (name : String) :
    passed start (⟨start, names.reverse⟩ : Way).names ⊆
      passed start (⟨start, (name :: names).reverse⟩ : Way).names := by
  apply passed_subset
  have hfront : names.reverse <+: (name :: names).reverse := by
    rw [List.reverse_cons]
    exact List.prefix_append _ _
  exact hfront.filter _

theorem grows_ensureDirectory_passed (start : Path) (names : List String) (d : Disk) :
    Grows (passed start (⟨start, names.reverse⟩ : Way).names) d
      (d.ensureDirectory ⟨start, names.reverse⟩).2 :=
  (grows_ensureDirectory d ⟨start, names.reverse⟩).mono
    (List.cons_subset.2 ⟨path_mem_passed ⟨start, names.reverse⟩, List.nil_subset _⟩)

theorem grows_ensureDirectories (start : Path) (names : List String) (d : Disk) :
    Grows (passed start (⟨start, names.reverse⟩ : Way).names) d
      (ensureDirectories start names d).2 := by
  induction names generalizing d with
  | nil => exact .refl _ _
  | cons name names ih =>
      have hown := grows_ensureDirectory_passed start (name :: names)
      rw [ensureDirectories]
      split
      · next d₁ h₁ =>
          have h := hown d
          rw [h₁] at h
          have hparents := (ih d₁).mono (passed_parent_subset name)
          split
          · next d₂ h₂ =>
              rw [h₂] at hparents
              exact (h.trans hparents).trans (hown d₂)
          · exact h.trans hparents
      · exact hown d

theorem names_reverse_reverse (w : Way) :
    (⟨w.start, w.names.reverse.reverse⟩ : Way).names = w.names := by
  rw [List.reverse_reverse]
  exact names_bare w

theorem grows_makeDirectories (d : Disk) (w : Way) :
    Grows (passed w.start w.names) d (d.makeDirectories w).2 := by
  rw [makeDirectories]
  split
  · exact .refl _ _
  · have h := grows_ensureDirectories w.start w.names.reverse d
    rw [names_reverse_reverse] at h
    exact h

end Making

end Disk

end VirtualInfra
