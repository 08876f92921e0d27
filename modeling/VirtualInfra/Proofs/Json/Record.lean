import VirtualInfra.Json.Record
import VirtualInfra.Proofs.Json.Text
import VirtualInfra.Proofs.Table

namespace VirtualInfra.Json

variable {α β : Type} {fields : List (String × Option Json)} {name : String}

def present (fields : List (String × Option Json)) : List (String × Json) :=
  fields.filterMap fun (k, j) => j.map fun j => (k, j)

theorem filter_present_of_notMem (h : name ∉ fields.map (·.1)) :
    (present fields).filter (fun m => [name].contains m.1) = [] := by
  rw [List.filter_eq_nil_iff]
  intro m hm hc
  obtain ⟨⟨k, j⟩, hf, hj⟩ := List.mem_filterMap.1 hm
  obtain ⟨j, rfl, rfl⟩ := Option.map_eq_some_iff.1 hj
  have hk : k = name := by simpa using hc
  exact h (List.mem_map.2 ⟨_, hf, hk⟩)

/-- The members with the name of a field are what is written for it. -/
theorem filter_present (h : (fields.map (·.1)).Nodup) {j : Option Json}
    (hj : fields.lookup name = some j) :
    (present fields).filter (fun m => [name].contains m.1) = (j.map fun j => (name, j)).toList := by
  induction fields with
  | nil => cases hj
  | cons f fields ih =>
      obtain ⟨k, j'⟩ := f
      have hn := List.nodup_cons.1 h
      rw [lookup_cons_eq_ite] at hj
      split at hj
      · next hk =>
          cases hj
          subst hk
          have hrest := filter_present_of_notMem hn.1
          cases j with
          | none => exact hrest
          | some j =>
              change (((name, j) :: present fields).filter _) = _
              rw [List.filter_cons_of_pos (by simp), hrest]
              rfl
      · next hk =>
          have hrest := ih hn.2 hj
          cases j' with
          | none => exact hrest
          | some j' =>
              change (((k, j') :: present fields).filter _) = _
              rw [List.filter_cons_of_neg (by simpa using fun h => hk h.symm), hrest]

theorem filter_present_of_names {names : List String} (hn : name ∈ names)
    (hother : ∀ k ∈ fields.map (·.1), k ∈ names → k = name) :
    (present fields).filter (fun m => names.contains m.1) =
      (present fields).filter (fun m => [name].contains m.1) := by
  apply List.filter_congr
  intro m hm
  obtain ⟨⟨k, j⟩, hf, hj⟩ := List.mem_filterMap.1 hm
  obtain ⟨j, rfl, rfl⟩ := Option.map_eq_some_iff.1 hj
  have hk := hother k (List.mem_map.2 ⟨_, hf, rfl⟩)
  rw [Bool.eq_iff_iff, List.contains_iff_mem, List.contains_iff_mem, List.mem_singleton]
  exact ⟨hk, fun h => h ▸ hn⟩

inductive Optional (write : α → Json) : Option α → Option Json → Prop
  | given (a : α) : Optional write (some a) (some (write a))
  | missing : Optional write none none
  | null : Optional write none (some .null)

theorem optional_map (write : α → Json) (x : Option α) : Optional write x (x.map write) := by
  cases x with
  | none => exact .missing
  | some a => exact .given a

/-- The reader makes this of the members written for some fields, and leaves them for others. No
two fields have one name. -/
def Recovers (fields : List (String × Option Json)) (reader : Reader α) (a : α) : Prop :=
  (fields.map (·.1)).Nodup →
    reader.run (.named (present fields)) = some (a, .named (present fields))

namespace Recovers

theorem pure (a : α) : Recovers fields (Pure.pure a) a := fun _ => rfl

theorem bind {reader : Reader α} {next : α → Reader β} {a : α} {b : β}
    (h : Recovers fields reader a) (hn : Recovers fields (next a) b) :
    Recovers fields (reader >>= next) b := by
  intro hf
  rw [StateT.run_bind, h hf]
  exact hn hf

theorem member? {names : List String} {j : Option Json} (hj : fields.lookup name = some j)
    (hn : name ∈ names) (hother : ∀ k ∈ fields.map (·.1), k ∈ names → k = name) :
    Recovers fields (Json.member? names) j := by
  intro hf
  change Json.member? names (.named (present fields)) = _
  rw [Json.member?]
  simp only [filter_present_of_names hn hother, filter_present hf hj]
  cases j <;> rfl

theorem member?_singleton {j : Option Json} (hj : fields.lookup name = some j) :
    Recovers fields (Json.member? [name]) j :=
  member? hj (List.mem_singleton_self name) fun _ _ => List.mem_singleton.1

theorem value {x : Option α} {a : α} (h : x = some a) :
    Recovers fields (liftM x : Reader α) a := by
  intro _
  rw [h]
  rfl

theorem required {j : Json} {read : Json → Option α} {a : α}
    (hj : fields.lookup name = some (some j)) (hr : read j = some a) :
    Recovers fields (Json.required name read) a :=
  (member?_singleton hj).bind (value hr)

theorem renamed {names : List String} {j : Option Json} {read : Json → Option α} {missing a : α}
    (hj : fields.lookup name = some j) (hn : name ∈ names)
    (hother : ∀ k ∈ fields.map (·.1), k ∈ names → k = name)
    (hr : j.elim (some missing) read = some a) :
    Recovers fields (Json.defaulted names read missing) a := by
  refine (member? hj hn hother).bind ?_
  cases j with
  | none =>
      cases hr
      exact .pure _
  | some j => exact value hr

theorem defaulted {j : Option Json} {read : Json → Option α} {missing a : α}
    (hj : fields.lookup name = some j) (hr : j.elim (some missing) read = some a) :
    Recovers fields (Json.defaulted [name] read missing) a :=
  renamed hj (List.mem_singleton_self name) (fun _ _ => List.mem_singleton.1) hr

/-- A member that may be missing; `null` is not what its value is written as. -/
theorem optional {x : Option α} {j : Option Json} {write : α → Json} {read : Json → Option α}
    (hj : fields.lookup name = some j) (hx : Optional write x j)
    (hr : ∀ a, read (write a) = some a) (hnull : ∀ a, write a ≠ .null) :
    Recovers fields (Json.omittable name read) x := by
  apply defaulted hj
  cases hx with
  | missing => rfl
  | null => rfl
  | given a =>
      change nullable? read (write a) = _
      unfold nullable?
      split
      · next hw => exact absurd hw (hnull a)
      · rw [hr]
        rfl

theorem omittable {x : Option α} {write : α → Json} {read : Json → Option α}
    (hj : fields.lookup name = some (x.map write)) (hr : ∀ a, read (write a) = some a)
    (hnull : ∀ a, write a ≠ .null) : Recovers fields (Json.omittable name read) x :=
  optional hj (optional_map write x) hr hnull

end Recovers

theorem record?_ofMembers {reader : Reader α} {a : α} (hf : (fields.map (·.1)).Nodup)
    (h : Recovers fields reader a) : record? reader (ofMembers fields) = some a := by
  change ((reader.run (.named (present fields))).map (·.1)) = some a
  rw [h hf]
  rfl

theorem obj_eq_ofMembers (members : List (String × Json)) :
    Json.obj members = ofMembers (members.map fun (k, j) => (k, some j)) := by
  rw [ofMembers]
  rw [List.filterMap_map]
  exact congrArg Json.obj List.filterMap_some.symm

theorem variant?_obj {readers : List (String × (Json → Option α))} {read : Json → Option α}
    (h : readers.lookup name = some read) (j : Json) :
    variant? readers (.obj [(name, j)]) = read j := by
  change (readers.lookup name).bind (fun read => read j) = _
  rw [h, Option.bind_some]

theorem str?_str (s : String) : str? (.str s) = some s := rfl

theorem list?_of_forall₂ {read : Json → Option α} {as : List α} {js : List Json}
    (h : List.Forall₂ (fun a j => read j = some a) as js) : list? read (.arr js) = some as := by
  change js.mapM read = some as
  induction h with
  | nil => rfl
  | cons ha _ ih =>
      rw [List.mapM_cons, ha, ih]
      rfl

theorem list?_ofList {read : Json → Option α} {write : α → Json}
    (h : ∀ a, read (write a) = some a) (as : List α) : list? read (ofList write as) = some as :=
  list?_of_forall₂ (List.forall₂_map_right_iff.2 (List.forall₂_same.2 fun a _ => h a))

/-- An empty list that is left out is read by its default. -/
theorem elim_list?_ofList {read : Json → Option α} {write : α → Json}
    (h : ∀ a, read (write a) = some a) (as : List α) [Decidable (as = [])] :
    (if as = [] then none else some (ofList write as)).elim (some []) (list? read) = some as := by
  split
  · next hnil => rw [hnil, Option.elim_none]
  · exact list?_ofList h as

theorem mapM_entries {read : Json → Option α} {write : α → Json}
    (h : ∀ a, read (write a) = some a) (es : List (String × α)) :
    (es.map fun (k, a) => (k, write a)).mapM (fun (k, j) => (read j).map fun a => (k, a)) =
      some es := by
  induction es with
  | nil => rfl
  | cons e es ih =>
      rw [List.map_cons, List.mapM_cons, ih]
      simp only [h]
      rfl

theorem table?_ofTable {read : Json → Option α} {write : α → Json}
    (h : ∀ a, read (write a) = some a) (t : Table α) :
    table? read (ofTable write t) = some t := by
  unfold table? ofTable
  simp only [mapM_entries h, Option.bind_eq_bind, Option.bind_some, Table.ofList_entries]
  rfl

theorem word32?_ofNat (n : UInt32) : word32? (ofNat n.toNat) = some n := by
  change (if n.toNat < UInt32.size then some n.toNat else none).map UInt32.ofNat = some n
  rw [if_pos n.toNat_lt, Option.map_some, UInt32.ofNat_toNat]

theorem word64?_ofNat (n : UInt64) : word64? (ofNat n.toNat) = some n := by
  change (if n.toNat < UInt64.size then some n.toNat else none).map UInt64.ofNat = some n
  rw [if_pos n.toNat_lt, Option.map_some, UInt64.ofNat_toNat]

section Plain

attribute [simp] Plain.null Plain.bool Plain.int Plain.str

@[simp] theorem plain_obj_iff {members : List (String × Json)} :
    (Json.obj members).Plain ↔ ∀ m ∈ members, m.2.Plain :=
  ⟨fun h => by cases h; assumption, .obj⟩

@[simp] theorem plain_ofMembers_iff :
    (ofMembers fields).Plain ↔ ∀ f ∈ fields, ∀ j, f.2 = some j → j.Plain := by
  rw [ofMembers]
  rw [plain_obj_iff]
  constructor
  · rintro h ⟨k, _⟩ hf j rfl
    exact h (k, j) (List.mem_filterMap.2 ⟨_, hf, rfl⟩)
  · intro h m hm
    obtain ⟨⟨k, j⟩, hf, hj⟩ := List.mem_filterMap.1 hm
    obtain ⟨j, rfl, rfl⟩ := Option.map_eq_some_iff.1 hj
    exact h _ hf j rfl

@[simp] theorem plain_ofNat (n : Nat) : (ofNat n).Plain := .int n

@[simp] theorem plain_ofTable {write : α → Json} (h : ∀ a, (write a).Plain) (t : Table α) :
    (ofTable write t).Plain := by
  refine .obj fun m hm => ?_
  obtain ⟨e, -, rfl⟩ := List.mem_map.1 hm
  exact h e.2

@[simp] theorem plain_ofList {write : α → Json} (h : ∀ a, (write a).Plain) (as : List α) :
    (ofList write as).Plain := by
  refine .arr fun j hj => ?_
  obtain ⟨a, -, rfl⟩ := List.mem_map.1 hj
  exact h a

end Plain

end VirtualInfra.Json
