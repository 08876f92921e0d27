import Mathlib.Control.Monad.Basic
import VirtualInfra.Catalogue.Document
import VirtualInfra.Proofs.Catalogue

namespace VirtualInfra.Catalogue

open Text

inductive Addition where
  | flavour (f : Flavour)
  | image (i : Image)
  | network (n : Network)
  | subnet (s : Subnet)
deriving DecidableEq

namespace Addition

def kind : Addition → RecordKind
  | .flavour _ => .flavour
  | .image _ => .image
  | .network _ => .network
  | .subnet _ => .subnet

def id : Addition → String
  | .flavour f => f.id
  | .image i => i.id
  | .network n => n.id
  | .subnet s => s.id

def add (c : Catalogue) : Addition → Except Error Catalogue
  | .flavour f => c.addFlavour f
  | .image i => c.addImage i
  | .network n => c.addNetwork n
  | .subnet s => c.addSubnet s

/-- A catalogue that refuses a record stays as it is. -/
def attempt (c : Catalogue) (a : Addition) : Except Error Unit × Catalogue :=
  match a.add c with
  | .ok c' => (.ok (), c')
  | .error e => (.error e, c)

def put (c : Catalogue) : Addition → Catalogue
  | .flavour f => { c with flavours := c.flavours.insert f.id f }
  | .image i => { c with images := c.images.insert i.id i }
  | .network n => { c with networks := c.networks.insert n.id n }
  | .subnet s => { c with subnets := c.subnets.insert s.id s }

end Addition

def record? (c : Catalogue) : RecordKind → String → Option Addition
  | .flavour, id => (c.flavours.get? id).map .flavour
  | .image, id => (c.images.get? id).map .image
  | .network, id => (c.networks.get? id).map .network
  | .subnet, id => (c.subnets.get? id).map .subnet

def collect (as : List Addition) : Catalogue :=
  as.foldl (fun c a => (a.attempt c).2) {}

variable {c c' : Catalogue} {a : Addition} {k : RecordKind} {id : String} {as : List Addition}

section Adding

theorem record?_put : (a.put c).record? k id =
    if a.kind = k ∧ a.id = id then some a else c.record? k id := by
  cases a <;> cases k <;>
    simp only [Addition.put, Addition.kind, Addition.id, record?, Table.get?_insert,
      reduceCtorEq, false_and, true_and, if_false, eq_comm (a := id)]
  all_goals split <;> rfl

theorem map_insertNew {α β : Type} (g : Table α → β) (x : α) (t : Table α) :
    (insertNew k id x t).map g =
      if (t.get? id).isSome then .error (.duplicate k id) else .ok (g (t.insert id x)) := by
  rw [insertNew, Table.contains]
  split <;> rfl

theorem add_eq_ite : a.add c = if (c.record? a.kind a.id).isSome then
    .error (.duplicate a.kind a.id) else .ok (a.put c) := by
  cases a <;>
    simp only [Addition.kind, Addition.id, record?, Option.isSome_map] <;>
    exact map_insertNew _ _ _

theorem attempt_of_taken (h : (c.record? a.kind a.id).isSome = true) :
    a.attempt c = (.error (.duplicate a.kind a.id), c) := by
  rw [Addition.attempt, add_eq_ite, if_pos h]

theorem attempt_of_free (h : (c.record? a.kind a.id).isSome = false) :
    a.attempt c = (.ok (), a.put c) := by
  rw [Addition.attempt, add_eq_ite, h, if_neg Bool.false_ne_true]

theorem record?_attempt : (a.attempt c).2.record? k id =
    (c.record? k id).or (if a.kind = k ∧ a.id = id then some a else none) := by
  cases h : (c.record? a.kind a.id).isSome with
  | true =>
      rw [attempt_of_taken h]
      split
      · next hk =>
          rw [hk.1, hk.2] at h
          rw [Option.or_of_isSome h]
      · rw [Option.or_none]
  | false =>
      rw [attempt_of_free h, record?_put]
      split
      · next hk =>
          rw [hk.1, hk.2, Option.isSome_eq_false_iff, Option.isNone_iff_eq_none] at h
          rw [h, Option.none_or]
      · rw [Option.or_none]

/-- Of several records with one id the first one stays. -/
theorem record?_collect (as : List Addition) (k : RecordKind) (id : String) :
    (collect as).record? k id = as.find? fun a => a.kind = k ∧ a.id = id := by
  -- for any catalogue to begin with, since each record that is added changes it
  have hrun : ∀ c : Catalogue, (as.foldl (fun c a => (a.attempt c).2) c).record? k id =
      (c.record? k id).or (as.find? fun a => a.kind = k ∧ a.id = id) := by
    induction as with
    | nil =>
        intro c
        rw [List.find?_nil, Option.or_none]
        rfl
    | cons a as ih =>
        intro c
        rw [List.foldl_cons, ih, record?_attempt, Option.or_assoc, List.find?_cons]
        by_cases h : a.kind = k ∧ a.id = id
        · rw [if_pos h, decide_eq_true h, Option.some_or]
        · rw [if_neg h, decide_eq_false h, Option.none_or]
  have hempty : ({} : Catalogue).record? k id = none := by cases k <;> rfl
  rw [collect, hrun, hempty, Option.none_or]

end Adding

section Validity

variable {s : Subnet} {key : Metadata.Key} {value : String}

def Carries (s : Subnet) (key : Metadata.Key) (value : String) : Prop :=
  s.metadata.get? key.name = some value ∧ isBlankText value = false

theorem value?_eq_some_iff : s.metadata.value? key = some value ↔ Carries s key value := by
  rw [Metadata.value?, Metadata.rawValue?, Option.filter_eq_some_iff, Bool.not_eq_true']
  rfl

/-- Parents are there, and no name or attachment belongs to two subnets. -/
structure Unambiguous (c : Catalogue) : Prop where
  parents : ∀ id s network, c.subnets.get? id = some s → s.parent = some network →
    ∃ n, c.networks.get? network = some n
  distinct : ∀ key ∈ [Metadata.Key.subnet, .attachment], ∀ value id s id' s',
    c.subnets.get? id = some s → c.subnets.get? id' = some s' →
    Carries s key value → Carries s' key value → id = id'

theorem Unambiguous.apart (h : c.Unambiguous) (hkey : key ∈ selectingKeys) :
    c.subnets.values.Pairwise fun s s' => ∀ value, s.metadata.value? key = some value →
      s'.metadata.value? key ≠ some value := by
  refine (Table.pairwise_values_iff fun s s' hs value hv' hv => hs value hv hv').2 ?_
  intro id s id' s' hs hs' hne value hv hv'
  exact hne (h.distinct key hkey value id s id' s' hs hs' (value?_eq_some_iff.1 hv)
    (value?_eq_some_iff.1 hv'))

theorem validate_eq_ok_iff : c.validate = .ok () ↔ c.Unambiguous := by
  constructor
  · intro h
    constructor
    · intro id s network hs hn
      have hparent := parents_of_checkSubnets h s (Table.mem_values_iff.2 ⟨id, hs⟩)
      exact Table.contains_iff.1 (checkParent_eq_ok_iff.1 hparent network hn)
    · intro key hkey value id s id' s' hs hs' hv hv'
      by_contra hne
      have hapart := (Table.pairwise_values_iff fun s s' hs value hv' hv => hs value hv hv').1
        (apart_of_checkSubnets h hkey).2
      exact hapart id s id' s' hs hs' hne value (value?_eq_some_iff.2 hv)
        (value?_eq_some_iff.2 hv')
  · intro h
    refine checkSubnets_of_apart (fun s hs => ?_) (fun _ _ _ _ _ _ hh => ?_) fun key => h.apart
    · obtain ⟨id, hs⟩ := Table.mem_values_iff.1 hs
      exact checkParent_eq_ok_iff.2 fun network hn =>
        Table.contains_iff.2 (h.parents id s network hs hn)
    · obtain ⟨e, he, -⟩ := hh
      cases he

end Validity

section Documents

variable {n : Kdl.Node} {ns : List Kdl.Node}

def Filed (c : Catalogue) : Prop :=
  ∀ k id a, c.record? k id = some a → a.kind = k ∧ a.id = id ∧ isBlankText id = false

theorem Filed.empty : Filed {} := by
  intro k id a h
  cases k <;> cases h

theorem Filed.add (h : c.Filed) (ha : isBlankText a.id = false) (hadd : a.add c = .ok c') :
    c'.Filed := by
  rw [add_eq_ite] at hadd
  split at hadd
  · cases hadd
  · cases hadd
    intro k id b hb
    rw [record?_put] at hb
    split at hb
    · next hk =>
        cases hb
        exact ⟨hk.1, hk.2, hk.2 ▸ ha⟩
    · exact h k id b hb

theorem recordId_eq_ok_iff {id : String} : recordId n = .ok id ↔
    n.firstArgument? >>= Kdl.Value.text? = some id ∧ isBlankText id = false := by
  rw [recordId]
  split
  · next other hother =>
      rw [hother, Option.some_inj]
      by_cases hb : isBlankText other = true
      · rw [if_pos hb]
        constructor
        · intro h
          cases h
        · rintro ⟨rfl, hid⟩
          rw [hb] at hid
          cases hid
      · rw [if_neg hb, Except.ok.injEq]
        constructor
        · rintro rfl
          exact ⟨rfl, eq_false_of_ne_true hb⟩
        · exact And.left
  · next hnone =>
      rw [hnone]
      constructor
      · intro h
        cases h
      · rintro ⟨h, -⟩
        cases h

theorem not_blank_of_recordId {id : String} (h : recordId n = .ok id) :
    isBlankText id = false :=
  (recordId_eq_ok_iff.1 h).2

theorem id_of_flavourPart {f f' : Flavour} (h : flavourPart f n = .ok f') : f'.id = f.id := by
  rw [flavourPart] at h
  split at h
  · split at h <;> cases h <;> rfl
  · split at h
    · obtain ⟨_, -, rfl⟩ := Except.map_eq_ok_iff.1 h
      rfl
    · cases h
      rfl
  · cases h
    rfl
  · cases h
    rfl

theorem id_of_imagePart {i i' : Image} (h : imagePart i n = .ok i') : i'.id = i.id := by
  rw [imagePart] at h
  split at h
  · obtain ⟨_, -, rfl⟩ := Except.map_eq_ok_iff.1 h
    rfl
  · cases h
    rfl

theorem recordId_of_flavourOfNode {f : Flavour} (h : flavourOfNode n = .ok f) :
    recordId n = .ok f.id := by
  obtain ⟨id, hid, h⟩ := Except.bind_eq_ok_iff.1 h
  have hf : f.id = id :=
    Except.of_foldlM (P := fun f => f.id = id) (fun _ _ _ _ hp he => (id_of_flavourPart hp).trans he)
      h rfl
  rwa [hf]

theorem recordId_of_imageOfNode {i : Image} (h : imageOfNode n = .ok i) :
    recordId n = .ok i.id := by
  obtain ⟨id, hid, h⟩ := Except.bind_eq_ok_iff.1 h
  have hparts : ∀ size, n.children.foldlM imagePart
      { id, name := (n.textProperty? "name").getD "", size, source := none } = .ok i → i.id = id :=
    fun size h => Except.of_foldlM (P := fun i => i.id = id)
      (fun _ _ _ _ hp he => (id_of_imagePart hp).trans he) h rfl
  have hi : i.id = id := by
    generalize n.property? "size" = size at h
    cases size with
    | none => exact hparts 0 h
    | some v =>
        obtain ⟨size, -, h⟩ := Except.bind_eq_ok_iff.1 h
        exact hparts size h
  rwa [hi]

theorem recordId_of_networkOfNode {w : Network} (h : networkOfNode n = .ok w) :
    recordId n = .ok w.id := by
  obtain ⟨id, hid, h⟩ := Except.bind_eq_ok_iff.1 h
  obtain ⟨kind, -, h⟩ := Except.bind_eq_ok_iff.1 h
  cases h
  exact hid

theorem recordId_of_subnetOfNode {s : Subnet} (h : subnetOfNode n = .ok s) :
    recordId n = .ok s.id := by
  obtain ⟨id, hid, h⟩ := Except.bind_eq_ok_iff.1 h
  cases h
  exact hid

inductive Content where
  | defaults (d : Defaults)
  | record (a : Addition)
  | nothing

namespace Content

def ofNode (n : Kdl.Node) : Except Error Content :=
  match n.name with
  | "defaults" => (defaultsOfNode n).map .defaults
  | "flavour" | "flavor" => (flavourOfNode n).map fun f => .record (.flavour f)
  | "image" => (imageOfNode n).map fun i => .record (.image i)
  | "network" => (networkOfNode n).map fun w => .record (.network w)
  | "subnet" => (subnetOfNode n).map fun s => .record (.subnet s)
  | _ => .ok .nothing

def enter (c : Catalogue) : Content → Except Error Catalogue
  | .defaults d => .ok { c with defaults := d }
  | .record a => a.add c
  | .nothing => .ok c

end Content

def nodeNames : List String := ["defaults", "flavour", "flavor", "image", "network", "subnet"]

theorem addNode_of_unknown (h : n.name ∉ nodeNames) : c.addNode n = .ok c := by
  rw [addNode]
  split
  all_goals first | rfl | next hn => exact absurd (hn ▸ by decide) h

theorem Content.ofNode_of_unknown (h : n.name ∉ nodeNames) : ofNode n = .ok .nothing := by
  rw [ofNode]
  split
  all_goals first | rfl | next hn => exact absurd (hn ▸ by decide) h

theorem addNode_eq_bind (c : Catalogue) (n : Kdl.Node) :
    c.addNode n = Content.ofNode n >>= fun t => t.enter c := by
  by_cases h : n.name ∈ nodeNames
  · simp only [nodeNames, List.mem_cons, List.not_mem_nil, or_false] at h
    rw [addNode, Content.ofNode]
    rcases h with h | h | h | h | h | h <;> rw [h]
    · cases defaultsOfNode n <;> rfl
    · cases flavourOfNode n <;> rfl
    · cases flavourOfNode n <;> rfl
    · cases imageOfNode n <;> rfl
    · cases networkOfNode n <;> rfl
    · cases subnetOfNode n <;> rfl
  · rw [addNode_of_unknown h, Content.ofNode_of_unknown h]
    rfl

theorem recordId_of_record {a : Addition} (h : Content.ofNode n = .ok (.record a)) :
    recordId n = .ok a.id := by
  rw [Content.ofNode] at h
  split at h
  · obtain ⟨_, -, hd⟩ := Except.map_eq_ok_iff.1 h
    cases hd
  · obtain ⟨f, hf, hr⟩ := Except.map_eq_ok_iff.1 h
    cases hr
    exact recordId_of_flavourOfNode hf
  · obtain ⟨f, hf, hr⟩ := Except.map_eq_ok_iff.1 h
    cases hr
    exact recordId_of_flavourOfNode hf
  · obtain ⟨i, hi, hr⟩ := Except.map_eq_ok_iff.1 h
    cases hr
    exact recordId_of_imageOfNode hi
  · obtain ⟨w, hw, hr⟩ := Except.map_eq_ok_iff.1 h
    cases hr
    exact recordId_of_networkOfNode hw
  · obtain ⟨s, hs, hr⟩ := Except.map_eq_ok_iff.1 h
    cases hr
    exact recordId_of_subnetOfNode hs
  · cases h

theorem Filed.addNode (h : c.Filed) (hn : c.addNode n = .ok c') : c'.Filed := by
  rw [addNode_eq_bind] at hn
  obtain ⟨t, ht, hn⟩ := Except.bind_eq_ok_iff.1 hn
  cases t with
  | defaults d =>
      cases hn
      exact h
  | record a => exact h.add (not_blank_of_recordId (recordId_of_record ht)) hn
  | nothing =>
      cases hn
      exact h

theorem of_ofText {text : String} (h : ofText text = .ok c) : c.Filed ∧ c.validate = .ok () := by
  rw [ofText] at h
  split at h
  · obtain ⟨c₁, hns, h⟩ := Except.bind_eq_ok_iff.1 h
    obtain ⟨⟨⟩, hv, h⟩ := Except.bind_eq_ok_iff.1 h
    cases h
    exact ⟨Except.of_foldlM (fun _ _ _ _ hn hf => Filed.addNode hf hn) hns .empty, hv⟩
  · cases h

end Documents

structure Selects (c : Catalogue) : Prop where
  byId : ∀ id s, c.subnets.get? id = some s → c.subnet (.byId s.id) = .ok s
  byName : ∀ id s name, c.subnets.get? id = some s → Carries s .subnet name →
    c.subnet (.byName name) = .ok s
  byAttachment : ∀ id s name, c.subnets.get? id = some s → Carries s .attachment name →
    c.subnet (.byAttachment name) = .ok s

theorem selects_of_validate (hf : c.Filed) (hv : c.validate = .ok ()) : c.Selects where
  byId id s hs := by
    have hid : s.id = id := (hf .subnet id (.subnet s) (congrArg (Option.map _) hs)).2.1
    rw [hid]
    exact found_eq_ok_iff.2 hs
  byName id s name hs hc :=
    found_eq_ok_iff.2 (subnetNamed?_of_validate hv (by decide) hs (value?_eq_some_iff.2 hc))
  byAttachment id s name hs hc :=
    subnet_byAttachment_of_validate hv hs (value?_eq_some_iff.2 hc)

/-- How a catalogue grows from its records: the first record of an id stays, and one that comes later
is refused and changes nothing. -/
structure Collects (as : List Addition) : Prop where
  records : ∀ k id, (collect as).record? k id = as.find? fun a => a.kind = k ∧ a.id = id
  refused : ∀ a b : Addition, b ∈ as → b.kind = a.kind → b.id = a.id →
    a.attempt (collect as) = (.error (.duplicate a.kind a.id), collect as)
  added : ∀ a : Addition, (∀ b ∈ as, b.kind = a.kind → b.id ≠ a.id) →
    a.attempt (collect as) = (.ok (), collect (as ++ [a]))

theorem collects (as : List Addition) : Collects as where
  records := record?_collect as
  refused a b hb hk hid := by
    refine attempt_of_taken ?_
    rw [record?_collect, List.find?_isSome]
    exact ⟨b, hb, decide_eq_true ⟨hk, hid⟩⟩
  added a h := by
    have hfree : ((collect as).record? a.kind a.id).isSome = false := by
      rw [record?_collect, Option.isSome_eq_false_iff, Option.isNone_iff_eq_none,
        List.find?_eq_none]
      intro b hb he
      exact h b hb (of_decide_eq_true he).1 (of_decide_eq_true he).2
    have hlast : collect (as ++ [a]) = (a.attempt (collect as)).2 := by
      rw [collect, List.foldl_append]
      rfl
    rw [hlast, attempt_of_free hfree]

/-- A catalogue is valid exactly when parents are there and names are not shared, and in one that is
read from a text every subnet is found by its id and by its names. -/
theorem valid_iff_unambiguous :
    (∀ as, Collects as ∧ ((collect as).validate = .ok () ↔ (collect as).Unambiguous)) ∧
      ∀ text c, ofText text = .ok c → c.Filed ∧ c.Unambiguous ∧ c.Selects := by
  refine ⟨fun as => ⟨collects as, validate_eq_ok_iff⟩, fun text c h => ?_⟩
  obtain ⟨hf, hv⟩ := of_ofText h
  exact ⟨hf, validate_eq_ok_iff.1 hv, selects_of_validate hf hv⟩

def sampleText : String :=
  "network net type=overlay\nsubnet sub network=net \x7bmetadata \x7b\"kubevim.io/subnet-name\" a\x7d\x7d"

def sample : Catalogue where
  networks := .ofList [("net", ⟨"net", "net", .overlay, ∅⟩)]
  subnets := .ofList [
    ("sub", ⟨"sub", some "net", none, .ofList [("kubevim.io/subnet-name", "a")]⟩)]

theorem valid_sample : ofText sampleText = .ok sample ∧
    sample.Filed ∧ sample.Unambiguous ∧ sample.Selects := by
  have h : ofText sampleText = .ok sample := by decide +kernel
  exact ⟨h, valid_iff_unambiguous.2 sampleText sample h⟩

end VirtualInfra.Catalogue
