import VirtualInfra.Json.Printer
import VirtualInfra.Proofs.Address
import VirtualInfra.Proofs.Json.Record
import VirtualInfra.Request
import VirtualInfra.Resource

namespace VirtualInfra

open Json

section Carries

variable {α : Type} {read : Json → Option α} {a : α} {j : Json}

structure Json.Carries (j : Json) (read : Json → Option α) (a : α) : Prop where
  value : read j = some a
  compact : (ofText? j.compact >>= read) = some a
  pretty : (ofText? j.pretty >>= read) = some a

theorem Json.carries_of_plain (hp : j.Plain) (h : read j = some a) : j.Carries read a where
  value := h
  compact := by rw [ofText?_compact hp, Option.bind_eq_bind, Option.bind_some, h]
  pretty := by rw [ofText?_pretty hp, Option.bind_eq_bind, Option.bind_some, h]

theorem Json.Optional.plain {write : α → Json} {x : Option α} {m : Option Json}
    (h : Optional write x m) (hw : ∀ a, (write a).Plain) : ∀ j, m = some j → j.Plain := by
  rintro j rfl
  cases h with
  | given a => exact hw a
  | null => exact .null

theorem Json.plain_of_forall₂ {written : α → Json → Prop} {as : List α} {js : List Json}
    (h : List.Forall₂ written as js) (hp : ∀ {a j}, written a j → j.Plain) : (arr js).Plain := by
  refine .arr fun j hj => ?_
  induction h with
  | nil => cases hj
  | cons ha _ ih =>
      rcases List.mem_cons.1 hj with rfl | hj
      · exact hp ha
      · exact ih hj

end Carries

namespace Request

theorem addressOfJson?_text (a : Address) : addressOfJson? (.str a.text) = some a :=
  a.ofText?_text

inductive Interface.Written (i : Interface) : Json → Prop
  | members {network subnet : Option Json}
    (network_written : Optional .str i.network network)
    (subnet_written : Optional .str i.subnet subnet) :
    Written i (ofMembers [("networkId", network), ("subnetId", subnet)])

theorem Interface.written_toJson (i : Interface) : i.Written i.toJson :=
  .members (optional_map _ _) (optional_map _ _)

theorem Interface.Written.plain {i : Interface} {j : Json} (h : i.Written j) : j.Plain := by
  obtain ⟨hn, hs⟩ := h
  simpa using ⟨hn.plain Plain.str, hs.plain Plain.str⟩

theorem Interface.ofJson?_of_written {i : Interface} {j : Json} (h : i.Written j) :
    ofJson? j = some i := by
  obtain ⟨hn, hs⟩ := h
  refine record?_ofMembers (by simp) ?_
  exact .bind (.optional rfl hn str?_str nofun) (.bind (.optional rfl hs str?_str nofun) (.pure _))

inductive Hint.Written (h : Hint) : Json → Prop
  | members {network subnet address mac : Option Json}
    (network_written : Optional .str h.network network)
    (subnet_written : Optional .str h.subnet subnet)
    (address_written : Optional (.str ·.text) h.address address)
    (mac_written : Optional .str h.mac mac) :
    Written h (ofMembers [("networkId", network), ("subnetId", subnet), ("ipAddress", address),
      ("macAddress", mac)])

theorem Hint.written_toJson (h : Hint) : h.Written h.toJson :=
  .members (optional_map _ _) (optional_map _ _) (optional_map _ _) (optional_map _ _)

theorem Hint.Written.plain {h : Hint} {j : Json} (hw : h.Written j) : j.Plain := by
  obtain ⟨hn, hs, ha, hm⟩ := hw
  simpa using ⟨hn.plain Plain.str, hs.plain Plain.str, ha.plain fun a => Plain.str a.text,
    hm.plain Plain.str⟩

theorem Hint.ofJson?_of_written {h : Hint} {j : Json} (hw : h.Written j) :
    ofJson? j = some h := by
  obtain ⟨hn, hs, ha, hm⟩ := hw
  refine record?_ofMembers (by simp) ?_
  exact .bind (.optional rfl hn str?_str nofun) (.bind (.optional rfl hs str?_str nofun)
    (.bind (.optional rfl ha addressOfJson?_text nofun)
    (.bind (.optional rfl hm str?_str nofun) (.pure _))))

/-- How a request may be written: the hints stand under one of two names, and a missing name of the
machine is left out or `null`. -/
inductive Written (r : Request) : Json → Prop
  | members {name : Option Json} {interfaces hints : List Json} {hinted : String}
    (name_written : Optional .str r.name name)
    (interfaces_written : List.Forall₂ Interface.Written r.interfaces interfaces)
    (hints_written : List.Forall₂ Hint.Written r.hints hints)
    (hinted_mem : hinted ∈ ["interfaceIPAM", "interfaceIpam"]) :
    Written r (ofMembers [
      ("flavourId", some (.str r.flavour)),
      ("imageId", some (.str r.image)),
      ("computeName", name),
      ("interfaceData", some (.arr interfaces)),
      (hinted, some (.arr hints))])

theorem written_toJson (r : Request) : r.Written r.toJson :=
  .members (optional_map _ _)
    (List.forall₂_map_right_iff.2 (List.forall₂_same.2 fun i _ => i.written_toJson))
    (List.forall₂_map_right_iff.2 (List.forall₂_same.2 fun h _ => h.written_toJson))
    (List.mem_cons_self ..)

theorem Written.plain {r : Request} {j : Json} (h : r.Written j) : j.Plain := by
  obtain ⟨hname, his, hhs, -⟩ := h
  have hinterfaces := plain_of_forall₂ his Interface.Written.plain
  have hhints := plain_of_forall₂ hhs Hint.Written.plain
  simpa using ⟨hname.plain Plain.str, hinterfaces, hhints⟩

theorem ofJson?_of_written {r : Request} {j : Json} (h : r.Written j) : ofJson? j = some r := by
  obtain ⟨hname, his, hhs, hmem⟩ := h
  have hinterfaces := list?_of_forall₂ (his.imp fun _ _ => Interface.ofJson?_of_written)
  have hhints := list?_of_forall₂ (hhs.imp fun _ _ => Hint.ofJson?_of_written)
  -- neither name is that of another member
  have hnames := hmem
  simp only [List.mem_cons, List.not_mem_nil, or_false] at hnames
  refine record?_ofMembers ?_ (.bind (.required rfl rfl) (.bind (.required rfl rfl)
    (.bind (.optional rfl hname str?_str nofun) (.bind (.defaulted rfl hinterfaces)
    (.bind (.renamed (j := some (arr _)) ?_ hmem ?_ hhints) (.pure _))))))
  · rcases hnames with rfl | rfl <;> simp
  · rcases hnames with rfl | rfl <;> rfl
  · rcases hnames with rfl | rfl <;> simp

end Request

namespace Resource

theorem OperationalState.ofJson?_name (s : OperationalState) : ofJson? (.str s.name) = some s := by
  cases s <;> decide +kernel

theorem RunningState.ofJson?_name (s : RunningState) : ofJson? (.str s.name) = some s := by
  cases s <;> decide +kernel

theorem NicType.ofJson?_name (t : NicType) : ofJson? (.str t.name) = some t := by
  cases t <;> decide +kernel

theorem elim_tableJson (t : Table String) :
    (tableJson t).elim (some ∅) (table? str?) = some t := by
  unfold tableJson
  split
  · next hempty =>
      have hentries : t.entries = [] := List.isEmpty_iff.1 hempty
      rw [Option.elim_none, ← Table.ofList_entries t, hentries]
      rfl
  · exact table?_ofTable str?_str t

theorem plain_of_tableJson {t : Table String} {j : Json} (h : tableJson t = some j) :
    j.Plain := by
  unfold tableJson at h
  split at h
  · cases h
  · cases h
    exact plain_ofTable Plain.str t

theorem Nic.ofJson?_toJson (n : Nic) : ofJson? n.toJson = some n := by
  refine record?_ofMembers (by simp) ?_
  exact .bind (.required rfl rfl) (.bind (.required rfl rfl)
    (.bind (.omittable rfl str?_str nofun) (.bind (.omittable rfl str?_str nofun)
    (.bind (.defaulted rfl (elim_list?_ofList str?_str n.addresses))
    (.bind (.omittable rfl str?_str nofun) (.bind (.required rfl n.type.ofJson?_name)
    (.bind (.defaulted rfl (elim_tableJson n.metadata)) (.pure _))))))))

theorem ofJson?_toJson (r : Resource) : ofJson? r.toJson = some r := by
  refine record?_ofMembers (by simp) ?_
  exact .bind (.required rfl rfl) (.bind (.required rfl rfl) (.bind (.required rfl rfl)
    (.bind (.required rfl rfl) (.bind (.defaulted rfl (list?_ofList Nic.ofJson?_toJson r.nics))
    (.bind (.omittable rfl str?_str nofun) (.bind (.required rfl r.operational.ofJson?_name)
    (.bind (.required rfl r.running.ofJson?_name)
    (.bind (.defaulted rfl (elim_tableJson r.metadata)) (.pure _)))))))))

theorem Nic.plain_toJson (n : Nic) : n.toJson.Plain := by
  simp only [toJson, plain_ofMembers_iff]
  simpa using fun _ => plain_of_tableJson

theorem plain_toJson (r : Resource) : r.toJson.Plain := by
  simp only [toJson, plain_ofMembers_iff]
  simpa [Nic.plain_toJson] using fun _ => plain_of_tableJson

end Resource

/-- A request is read back however it is written, and a resource is read back from what is written
for it. -/
theorem Json.carries_of_written (r : Request) (v : Resource) :
    r.Written r.toJson ∧ (∀ j, r.Written j → j.Carries Request.ofJson? r) ∧
      v.toJson.Carries Resource.ofJson? v :=
  ⟨r.written_toJson, fun _ h => carries_of_plain h.plain (Request.ofJson?_of_written h),
    carries_of_plain v.plain_toJson v.ofJson?_toJson⟩

theorem Json.carries_of_alias_of_null :
    Carries
      (ofMembers [
        ("flavourId", some (.str "small")),
        ("imageId", some (.str "debian")),
        ("computeName", some .null),
        ("interfaceData", some (.arr [])),
        ("interfaceIpam", some (.arr [ofMembers [
          ("networkId", some .null),
          ("subnetId", some (.str "lan")),
          ("ipAddress", some (.str "::ffff:192.168.0.1")),
          ("macAddress", none)]]))])
      Request.ofJson?
      { flavour := "small"
        image := "debian"
        hints := [{
          subnet := some "lan"
          address := some (.v6 [0, 0, 0, 0, 0, 0xFFFF, 0xC0A8, 1] rfl) }] } := by
  have htext : Address.text (.v6 [0, 0, 0, 0, 0, 0xFFFF, 0xC0A8, 1] rfl) =
      "::ffff:192.168.0.1" := by
    decide +kernel
  have haddress : Optional (.str ·.text)
      (some (Address.v6 [0, 0, 0, 0, 0, 0xFFFF, 0xC0A8, 1] rfl))
      (some (.str "::ffff:192.168.0.1")) :=
    htext ▸ .given _
  let v : Resource :=
    { id := "vm", name := "web", flavour := "small", image := "debian", nics := [], host := none
      operational := .enabled, running := .running, metadata := ∅ }
  exact (Json.carries_of_written _ v).2.1 _ (.members .null .nil
    (.cons (.members .null (.given "lan") haddress .missing) .nil) (by simp))

end VirtualInfra
