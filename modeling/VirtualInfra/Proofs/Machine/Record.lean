import VirtualInfra.Machine.Live
import VirtualInfra.Proofs.Json.Record

namespace VirtualInfra

open Json

theorem RunStrategy.ofJson?_toJson (r : RunStrategy) : ofJson? r.toJson = some r := by
  cases r <;> decide +kernel

theorem Image.Source.ofJson?_toJson (s : Image.Source) : ofJson? s.toJson = some s := by
  cases s with
  | http url =>
      refine (variant?_obj rfl _).trans ?_
      rw [obj_eq_ofMembers]
      refine record?_ofMembers (by simp) ?_
      exact .bind (.required rfl rfl) (.pure _)
  | registry url =>
      refine (variant?_obj rfl _).trans ?_
      rw [obj_eq_ofMembers]
      refine record?_ofMembers (by simp) ?_
      exact .bind (.required rfl rfl) (.pure _)
  | claim space name =>
      refine (variant?_obj rfl _).trans ?_
      rw [obj_eq_ofMembers]
      refine record?_ofMembers (by simp) ?_
      exact .bind (.required rfl rfl) (.bind (.required rfl rfl) (.pure _))

@[simp] theorem Image.Source.plain_toJson (s : Image.Source) : s.toJson.Plain := by
  cases s <;> simp [toJson]

@[simp] theorem RunStrategy.plain_toJson (r : RunStrategy) : r.toJson.Plain := .str _

namespace Machine

theorem Reference.ofJson?_toJson (r : Reference) : ofJson? r.toJson = some r := by
  rw [toJson, obj_eq_ofMembers]
  refine record?_ofMembers (by simp) ?_
  exact .bind (.required rfl rfl) (.bind (.required rfl rfl) (.pure _))

theorem BootVolume.ofJson?_toJson (v : BootVolume) : ofJson? v.toJson = some v := by
  rw [toJson, obj_eq_ofMembers]
  refine record?_ofMembers (by simp) ?_
  exact .bind (.required rfl rfl) (.bind (.required rfl (word64?_ofNat v.storage))
    (.bind (.required rfl v.source.ofJson?_toJson) (.pure _)))

theorem recovers_switch {fields : List (String × Option Json)} {name : String} {on : Bool}
    (hon : fields.lookup name = some (switchJson on)) : Recovers fields (switch name) on := by
  refine .defaulted hon ?_
  cases on <;> rfl

theorem Link.ofJson?_toJson (l : Link) : ofJson? l.toJson = some l := by
  have hattached (name : String) :
      record? (required "networkName" str?) (.obj [("networkName", .str name)]) = some name := by
    rw [obj_eq_ofMembers]
    refine record?_ofMembers (by simp) ?_
    exact .required rfl rfl
  refine record?_ofMembers (by simp) ?_
  exact .bind (.required rfl rfl) (.bind (recovers_switch rfl)
    (.bind (.omittable rfl hattached nofun) (.pure _)))

theorem Nic.ofJson?_toJson (n : Nic) : ofJson? n.toJson = some n := by
  refine record?_ofMembers (by simp) ?_
  exact .bind (.required rfl rfl) (.bind (recovers_switch rfl) (.bind (recovers_switch rfl)
    (.bind (recovers_switch rfl) (.bind (.omittable rfl str?_str nofun) (.pure _)))))

theorem Drive.ofJson?_toJson (d : Drive) : ofJson? d.toJson = some d := by
  have hvolume : record? (required "name" str?) (.obj [("name", .str d.volume)]) =
      some d.volume := by
    rw [obj_eq_ofMembers]
    refine record?_ofMembers (by simp) ?_
    exact .required rfl rfl
  rw [toJson, obj_eq_ofMembers]
  refine record?_ofMembers (by simp) ?_
  exact .bind (.required rfl rfl) (.bind (.required rfl hvolume) (.pure _))

theorem Spec.ofJson?_toJson (s : Spec) : ofJson? s.toJson = some s := by
  refine record?_ofMembers (by simp) ?_
  exact .bind (.required rfl rfl) (.bind (.required rfl rfl)
    (.bind (.required rfl (table?_ofTable str?_str s.labels))
    (.bind (.required rfl s.runStrategy.ofJson?_toJson)
    (.bind (.required rfl s.instancetype.ofJson?_toJson)
    (.bind (.omittable rfl Reference.ofJson?_toJson nofun)
    (.bind (.required rfl (list?_ofList BootVolume.ofJson?_toJson s.volumes))
    (.bind (.required rfl (list?_ofList Link.ofJson?_toJson s.links))
    (.bind (.required rfl (list?_ofList Nic.ofJson?_toJson s.nics))
    (.bind (.required rfl (list?_ofList Drive.ofJson?_toJson s.drives)) (.pure _))))))))))

theorem Status.ofJson?_toJson (s : Status) : ofJson? s.toJson = some s := by
  refine record?_ofMembers (by simp) ?_
  exact .bind (.defaulted rfl rfl) (.bind (.defaulted rfl rfl)
    (.bind (.omittable rfl str?_str nofun) (.pure _)))

theorem ofJson?_toJson (m : Machine) : ofJson? m.toJson = some m := by
  rw [toJson, obj_eq_ofMembers]
  refine record?_ofMembers (by simp) ?_
  exact .bind (.required rfl rfl) (.bind (.required rfl m.spec.ofJson?_toJson)
    (.bind (.defaulted rfl m.status.ofJson?_toJson) (.pure _)))

@[simp] theorem Reference.plain_toJson (r : Reference) : r.toJson.Plain := by
  simp [toJson]

@[simp] theorem BootVolume.plain_toJson (v : BootVolume) : v.toJson.Plain := by
  simp [toJson]

theorem plain_of_switchJson {on : Bool} {j : Json} (h : switchJson on = some j) :
    j.Plain := by
  cases on with
  | false => cases h
  | true =>
      cases h
      exact .obj nofun

@[simp] theorem Link.plain_toJson (l : Link) : l.toJson.Plain := by
  simp only [toJson, plain_ofMembers_iff]
  simpa using fun _ => plain_of_switchJson

@[simp] theorem Nic.plain_toJson (n : Nic) : n.toJson.Plain := by
  simp only [toJson, plain_ofMembers_iff]
  simpa using ⟨fun _ => plain_of_switchJson, fun _ => plain_of_switchJson,
    fun _ => plain_of_switchJson⟩

@[simp] theorem Drive.plain_toJson (d : Drive) : d.toJson.Plain := by
  simp [toJson]

@[simp] theorem Spec.plain_toJson (s : Spec) : s.toJson.Plain := by
  simp [toJson]

@[simp] theorem Status.plain_toJson (s : Status) : s.toJson.Plain := by
  simp [toJson]

@[simp] theorem plain_toJson (m : Machine) : m.toJson.Plain := by
  simp [toJson]

end Machine

namespace Instance

theorem Phase.ofText_name (p : Phase) : ofText p.name = p := by
  cases p <;> decide +kernel

theorem Condition.ofJson?_toJson (c : Condition) : ofJson? c.toJson = some c := by
  rw [toJson, obj_eq_ofMembers]
  refine record?_ofMembers (by simp) ?_
  exact .bind (.required rfl rfl) (.bind (.required rfl rfl) (.pure _))

theorem Nic.ofJson?_toJson (n : Nic) : ofJson? n.toJson = some n := by
  refine record?_ofMembers (by simp) ?_
  exact .bind (.defaulted rfl rfl) (.bind (.omittable rfl str?_str nofun)
    (.bind (.defaulted rfl (elim_list?_ofList str?_str n.addresses)) (.bind (.omittable rfl str?_str nofun) (.pure _))))

theorem ofJson?_toJson (i : Instance) : ofJson? i.toJson = some i := by
  refine record?_ofMembers (by simp) ?_
  refine .bind (.required rfl rfl)
    (.bind (.defaulted rfl (list?_ofList Condition.ofJson?_toJson i.conditions))
    (.bind (.omittable rfl str?_str nofun)
    (.bind (.defaulted rfl (list?_ofList Nic.ofJson?_toJson i.nics)) ?_)))
  rw [Phase.ofText_name]
  exact .pure i

@[simp] theorem Condition.plain_toJson (c : Condition) : c.toJson.Plain := by
  simp [toJson]

@[simp] theorem Nic.plain_toJson (n : Nic) : n.toJson.Plain := by
  simp [toJson]

@[simp] theorem plain_toJson (i : Instance) : i.toJson.Plain := by
  simp [toJson]

end Instance

end VirtualInfra
