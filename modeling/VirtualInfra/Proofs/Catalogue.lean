import VirtualInfra.Catalogue
import VirtualInfra.Proofs.Except
import VirtualInfra.Proofs.Table

namespace VirtualInfra.Catalogue

theorem found_eq_ok_iff {α : Type} {subject : Fault.Subject} {id : String} {x : Option α} {a : α} :
    found subject id x = .ok a ↔ x = some a := by
  cases x <;> simp [found]

variable {c : Catalogue} {s : Subnet} {key : Metadata.Key} {value : String}

def Has (taken : List TakenName) (key : Metadata.Key) (value : String) : Prop :=
  ∃ e ∈ taken, e.key = key ∧ e.value = value

/-- The names of a subnet are free before they are taken, and stay taken. -/
theorem has_of_takeNames {keys : List Metadata.Key} {taken taken' : List TakenName}
    (h : takeNames s keys taken = .ok taken') :
    (∀ key value, Has taken key value → Has taken' key value) ∧
      ∀ key ∈ keys, ∀ value, s.metadata.value? key = some value →
        ¬ Has taken key value ∧ Has taken' key value := by
  induction keys generalizing taken with
  | nil =>
      cases h
      exact ⟨fun _ _ h => h, nofun⟩
  | cons k keys ih =>
      rw [takeNames] at h
      split at h
      · next hnone =>
          obtain ⟨hmono, hkeys⟩ := ih h
          refine ⟨hmono, fun key hkey value hv => ?_⟩
          rcases List.mem_cons.1 hkey with rfl | hkey
          · rw [hnone] at hv
            cases hv
          · exact hkeys key hkey value hv
      · next v hsome =>
          split at h
          · cases h
          · next hfree =>
              obtain ⟨hmono, hkeys⟩ := ih h
              have hmore : ∀ key value, Has taken key value →
                  Has (⟨k, v, s.id⟩ :: taken) key value :=
                fun _ _ ⟨e, he, hk⟩ => ⟨e, List.mem_cons_of_mem _ he, hk⟩
              refine ⟨fun key value hh => hmono _ _ (hmore _ _ hh), fun key hkey value hv => ?_⟩
              rcases List.mem_cons.1 hkey with rfl | hkey
              · rw [hsome] at hv
                cases hv
                refine ⟨?_, hmono _ _ ⟨_, List.mem_cons_self, rfl, rfl⟩⟩
                rintro ⟨e, he, hk⟩
                exact absurd (decide_eq_true hk) (List.find?_eq_none.1 hfree e he)
              · obtain ⟨hnot, hin⟩ := hkeys key hkey value hv
                exact ⟨fun hh => hnot (hmore _ _ hh), hin⟩

/-- No later subnet has a name of an earlier one. -/
theorem apart_of_checkSubnets {ss : List Subnet} {taken : List TakenName}
    (h : c.checkSubnets ss taken = .ok ()) (hkey : key ∈ selectingKeys) :
    (∀ s ∈ ss, ∀ value, s.metadata.value? key = some value → ¬ Has taken key value) ∧
      ss.Pairwise fun s s' => ∀ value, s.metadata.value? key = some value →
        s'.metadata.value? key ≠ some value := by
  induction ss generalizing taken with
  | nil => exact ⟨nofun, .nil⟩
  | cons s ss ih =>
      rw [checkSubnets] at h
      obtain ⟨⟨⟩, -, h⟩ := Except.bind_eq_ok_iff.1 h
      obtain ⟨taken', ht, h⟩ := Except.bind_eq_ok_iff.1 h
      obtain ⟨hmono, hkeys⟩ := has_of_takeNames ht
      obtain ⟨hfree, hpair⟩ := ih h
      constructor
      · intro s' hs' value hv
        rcases List.mem_cons.1 hs' with rfl | hs'
        · exact (hkeys key hkey value hv).1
        · exact fun hh => hfree s' hs' value hv (hmono _ _ hh)
      · refine List.pairwise_cons.2 ⟨fun s' hs' value hv hv' => ?_, hpair⟩
        exact hfree s' hs' value hv' (hkeys key hkey value hv).2

theorem checkParent_eq_ok_iff : c.checkParent s = .ok () ↔
    ∀ network, s.parent = some network → c.networks.contains network = true := by
  rw [checkParent]
  cases s.parent with
  | none => exact ⟨nofun, fun _ => rfl⟩
  | some network => by_cases h : c.networks.contains network <;> simp [h]

theorem takeNames_of_free {keys : List Metadata.Key} (hn : keys.Nodup) {taken : List TakenName}
    (hfree : ∀ key ∈ keys, ∀ value, s.metadata.value? key = some value → ¬ Has taken key value) :
    ∃ taken', takeNames s keys taken = .ok taken' ∧ ∀ key value, Has taken' key value →
      Has taken key value ∨ key ∈ keys ∧ s.metadata.value? key = some value := by
  induction keys generalizing taken with
  | nil => exact ⟨taken, rfl, fun _ _ h => .inl h⟩
  | cons k keys ih =>
      obtain ⟨hk, hn⟩ := List.nodup_cons.1 hn
      rw [takeNames]
      cases hv : s.metadata.value? k with
      | none =>
          obtain ⟨taken', ht, hback⟩ :=
            ih hn fun key hkey => hfree key (List.mem_cons_of_mem _ hkey)
          exact ⟨taken', ht, fun key value h =>
            (hback key value h).imp id fun ⟨hkey, h⟩ => ⟨List.mem_cons_of_mem _ hkey, h⟩⟩
      | some v =>
          have hnone : taken.find? (fun e => e.key = k ∧ e.value = v) = none := by
            refine List.find?_eq_none.2 fun e he hkv => ?_
            exact hfree k List.mem_cons_self v hv ⟨e, he, of_decide_eq_true hkv⟩
          simp only [hnone]
          -- the key that is taken now is none of those that remain
          have hlater : ∀ key ∈ keys, ∀ value, s.metadata.value? key = some value →
              ¬ Has (⟨k, v, s.id⟩ :: taken) key value := by
            rintro key hkey value hvalue ⟨e, he, hkv⟩
            rcases List.mem_cons.1 he with rfl | he
            · have he : k = key := hkv.1
              exact hk (he ▸ hkey)
            · exact hfree key (List.mem_cons_of_mem _ hkey) value hvalue ⟨e, he, hkv⟩
          obtain ⟨taken', ht, hback⟩ := ih hn hlater
          refine ⟨taken', ht, fun key value h => ?_⟩
          rcases hback key value h with ⟨e, he, rfl, rfl⟩ | ⟨hkey, hvalue⟩
          · rcases List.mem_cons.1 he with rfl | he
            · exact .inr ⟨List.mem_cons_self, hv⟩
            · exact .inl ⟨e, he, rfl, rfl⟩
          · exact .inr ⟨List.mem_cons_of_mem _ hkey, hvalue⟩

theorem parents_of_checkSubnets {ss : List Subnet} {taken : List TakenName}
    (h : c.checkSubnets ss taken = .ok ()) : ∀ s ∈ ss, c.checkParent s = .ok () := by
  induction ss generalizing taken with
  | nil => exact nofun
  | cons s ss ih =>
      rw [checkSubnets] at h
      obtain ⟨⟨⟩, hparent, h⟩ := Except.bind_eq_ok_iff.1 h
      obtain ⟨_, -, h⟩ := Except.bind_eq_ok_iff.1 h
      exact List.forall_mem_cons.2 ⟨hparent, ih h⟩

theorem checkSubnets_of_apart {ss : List Subnet} {taken : List TakenName}
    (hparents : ∀ s ∈ ss, c.checkParent s = .ok ())
    (hfree : ∀ key ∈ selectingKeys, ∀ s ∈ ss, ∀ value, s.metadata.value? key = some value →
      ¬ Has taken key value)
    (hpair : ∀ key ∈ selectingKeys, ss.Pairwise fun s s' => ∀ value,
      s.metadata.value? key = some value → s'.metadata.value? key ≠ some value) :
    c.checkSubnets ss taken = .ok () := by
  induction ss generalizing taken with
  | nil => rfl
  | cons s ss ih =>
      obtain ⟨hparent, hparents⟩ := List.forall_mem_cons.1 hparents
      have hnodup : selectingKeys.Nodup := by decide
      obtain ⟨taken', ht, hback⟩ :=
        takeNames_of_free hnodup fun key hkey => hfree key hkey s List.mem_cons_self
      have hfree' : ∀ key ∈ selectingKeys, ∀ s' ∈ ss, ∀ value,
          s'.metadata.value? key = some value → ¬ Has taken' key value := by
        intro key hkey s' hs' value hv hh
        rcases hback key value hh with hh | ⟨-, hown⟩
        · exact hfree key hkey s' (List.mem_cons_of_mem _ hs') value hv hh
        · exact (List.pairwise_cons.1 (hpair key hkey)).1 s' hs' value hown hv
      rw [checkSubnets]
      rw [hparent, Except.ok_bind, ht]
      exact ih hparents hfree' fun key hkey => (List.pairwise_cons.1 (hpair key hkey)).2

/-- A name of a subnet finds this subnet and no other. -/
theorem subnetNamed?_of_validate (h : c.validate = .ok ()) (hkey : key ∈ selectingKeys)
    {id : String} (hs : c.subnets.get? id = some s) (hv : s.metadata.value? key = some value) :
    c.subnetNamed? key value = some s := by
  have hmem : s ∈ c.subnets.values := Table.mem_values_iff.2 ⟨id, hs⟩
  have hpair := (apart_of_checkSubnets h hkey).2
  rw [subnetNamed?]
  generalize c.subnets.values = ss at hmem hpair ⊢
  induction ss with
  | nil => cases hmem
  | cons s' ss ih =>
      obtain ⟨hfirst, hrest⟩ := List.pairwise_cons.1 hpair
      rcases List.mem_cons.1 hmem with rfl | hmem
      · rw [List.find?_cons_of_pos]
        exact decide_eq_true hv
      · rw [List.find?_cons_of_neg, ih hmem hrest]
        rw [decide_eq_true_eq]
        exact fun hv' => hfirst s hmem value hv' hv

theorem subnet_byAttachment_of_validate (h : c.validate = .ok ()) {id : String}
    (hs : c.subnets.get? id = some s) (hv : s.metadata.value? .attachment = some value) :
    c.subnet (.byAttachment value) = .ok s :=
  found_eq_ok_iff.2 (subnetNamed?_of_validate h (by decide) hs hv)

end VirtualInfra.Catalogue
