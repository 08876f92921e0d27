import Mathlib.Logic.Relation
import VirtualInfra.Proofs.Compilation
import VirtualInfra.Proofs.Resolution.Decision
import VirtualInfra.Proofs.Text.Blank

namespace VirtualInfra.Request

open Text

inductive Blanks : Option String → Option String → Prop
  | same (field : Option String) : Blanks field field
  | around {before after : String} (text : String) (hb : isBlankText before = true)
      (ha : isBlankText after = true) : Blanks (some text) (some (before ++ text ++ after))
  | filled {blank : String} (h : isBlankText blank = true) : Blanks none (some blank)

/-- The hint is on no network that an interface alone asks for, and on no subnet that is selected:
by an interface that names it, or by the first hint for the network of one that names none. -/
structure Unmatched (r : Request) (h : Hint) : Prop where
  network : ∀ i ∈ r.interfaces, (∀ id, ¬ Names i.subnet id) →
    ∀ n, Names i.network n → ¬ Names h.network n
  subnet : ∀ i ∈ r.interfaces, ∀ id, i.selected? r.hints = some id → ¬ Names h.subnet id

/-- One change of a request that must not matter. A hint is moved by taking it out and putting it in
elsewhere. -/
inductive Retouches : Request → Request → Prop
  | insert (r : Request) {before after : List Hint} {h : Hint} (hr : r.hints = before ++ after)
      (hu : r.Unmatched h) : Retouches r { r with hints := before ++ h :: after }
  | remove (r : Request) {before after : List Hint} {h : Hint} (hr : r.hints = before ++ h :: after)
      (hu : r.Unmatched h) : Retouches r { r with hints := before ++ after }
  | interface (r : Request) {before after : List Interface} {i i' : Interface}
      (hr : r.interfaces = before ++ i :: after) (hn : Blanks i.network i'.network)
      (hs : Blanks i.subnet i'.subnet) :
      Retouches r { r with interfaces := before ++ i' :: after }
  | hint (r : Request) {before after : List Hint} {h h' : Hint} (hr : r.hints = before ++ h :: after)
      (hn : Blanks h.network h'.network) (hs : Blanks h.subnet h'.subnet)
      (ha : h'.address = h.address) (hm : Blanks h.mac h'.mac) :
      Retouches r { r with hints := before ++ h' :: after }

theorem Blanks.present?_eq {field field' : Option String} (h : Blanks field field') :
    present? field' = present? field := by
  cases h with
  | same => rfl
  | around text hb ha => exact nonBlank?_append hb ha text
  | filled h =>
      change nonBlank? _ = none
      rw [nonBlank?, if_pos h]

structure Hint.Same (h h' : Hint) : Prop where
  network : present? h'.network = present? h.network
  subnet : present? h'.subnet = present? h.subnet
  address : h'.address = h.address
  mac : present? h'.mac = present? h.mac

def heard (hints : List Hint) (subnet : String) : Option (Option Address × Option String) :=
  (subnetHint? hints subnet).map fun h => (h.address, present? h.mac)

structure Interface.Alike (hints hints' : List Hint) (i i' : Interface) : Prop where
  network : present? i'.network = present? i.network
  subnet : present? i'.subnet = present? i.subnet
  selected : i'.selected? hints' = i.selected? hints
  heard : ∀ id, i.selected? hints = some id → heard hints' id = heard hints id

section Resolving

variable {World : Type} (host : Host World) {hints hints' : List Hint} {i i' : Interface}

theorem ofHint_of_heard {asked : String} (h : heard hints' asked = heard hints asked) (s : Subnet) :
    Assignment.ofHint asked s (subnetHint? hints' asked) =
      Assignment.ofHint asked s (subnetHint? hints asked) := by
  unfold heard at h
  revert h
  cases subnetHint? hints' asked with
  | none =>
      cases subnetHint? hints asked with
      | none => exact fun _ => rfl
      | some h => nofun
  | some h' =>
      cases subnetHint? hints asked with
      | none => nofun
      | some h =>
          intro heq
          rw [Option.map_some, Option.map_some, Option.some.injEq, Prod.mk.injEq] at heq
          simp only [Assignment.ofHint, heq.1, heq.2]

/-- Interfaces that name and select the same are resolved alike, if the hints assign the same. -/
theorem Interface.resolve_congr (hn : present? i'.network = present? i.network)
    (hs : present? i'.subnet = present? i.subnet)
    (hselected : i'.selected? hints' = i.selected? hints)
    (hassigned : ∀ id, i.selected? hints = some id → ∀ s,
      Assignment.ofHint id s (subnetHint? hints' id) =
        Assignment.ofHint id s (subnetHint? hints id)) :
    i'.resolve host hints' = i.resolve host hints := by
  have hasked {asked : String} (hid : i.selected? hints = some asked) (network : Option String) :
      resolveSubnet host asked network hints' = resolveSubnet host asked network hints := by
    unfold resolveSubnet
    simp only [hassigned asked hid]
  unfold Interface.selected? at hselected hasked
  unfold Interface.resolve
  rw [hn, hs] at hselected ⊢
  cases hsubnet : present? i.subnet with
  | some asked =>
      rw [hsubnet] at hasked
      exact hasked rfl _
  | none =>
      rw [hsubnet] at hselected hasked
      cases hnetwork : present? i.network with
      | none => rfl
      | some n =>
          rw [hnetwork] at hselected hasked
          simp only [] at hselected hasked ⊢
          rw [hselected]
          refine bind_congr fun network => ?_
          cases network.kind with
          | overlay => rfl
          | underlay =>
              cases hid : (networkHint? hints n).bind fun h => present? h.subnet with
              | none => rfl
              | some asked => exact hasked hid _

structure Interface.Equivalent (hints hints' : List Hint) (i i' : Interface) : Prop where
  check : i'.check = i.check
  resolve : i'.resolve host hints' = i.resolve host hints

theorem Interface.Alike.equivalent (h : Interface.Alike hints hints' i i') :
    Interface.Equivalent host hints hints' i i' where
  check := by
    unfold Interface.check
    rw [h.network, h.subnet]
  resolve := resolve_congr host h.network h.subnet h.selected fun id hid s =>
    ofHint_of_heard (h.heard id hid) s

end Resolving

structure Alike (r r' : Request) : Prop where
  flavour : r'.flavour = r.flavour
  image : r'.image = r.image
  name : r'.name = r.name
  interfaces : List.Forall₂ (Interface.Alike r.hints r'.hints) r.interfaces r'.interfaces

section Compiling

variable {World : Type} (host : Host World) {hints hints' : List Hint} {is is' : List Interface}

theorem checkInterfaces_congr
    (h : List.Forall₂ (Interface.Equivalent host hints hints') is is') (index : Nat) :
    checkInterfaces index is' = checkInterfaces index is := by
  induction h generalizing index with
  | nil => rfl
  | cons hi _ ih => rw [checkInterfaces, checkInterfaces, hi.check, ih]

theorem attachAll_congr (h : List.Forall₂ (Interface.Equivalent host hints hints') is is')
    (index : Nat) : attachAll host hints' index is' = attachAll host hints index is := by
  induction h generalizing index with
  | nil => rfl
  | @cons i i' _ _ hi _ ih =>
      have hattach : i'.attach host hints' = i.attach host hints := by
        unfold Interface.attach
        rw [hi.resolve]
      rw [attachAll, attachAll, hattach, ih]

theorem compile_congr {r r' : Request} (hf : r'.flavour = r.flavour) (hi : r'.image = r.image)
    (hn : r'.name = r.name)
    (his : List.Forall₂ (Interface.Equivalent host r.hints r'.hints) r.interfaces r'.interfaces)
    (d : Defaults) : r'.compile host d = r.compile host d := by
  have hcheck : r'.check = r.check := by
    unfold check
    rw [hf, hi, hn, checkInterfaces_congr host his]
  have hname (image : Image) : r'.machineName image d = r.machineName image d := by
    unfold machineName
    rw [hn]
  have hspec (name : String) : Machine.Spec.assemble name r' = Machine.Spec.assemble name r := by
    funext profile volume attachments d
    unfold Machine.Spec.assemble labels
    rw [hf, hi]
  unfold Request.compile
  simp only [hcheck, hf, hi, hname, hspec, attachAll_congr host his]

theorem Alike.compile {r r' : Request} (h : Alike r r') (d : Defaults) :
    r'.compile host d = r.compile host d :=
  compile_congr host h.flavour h.image h.name
    (h.interfaces.imp fun _ _ hi => hi.equivalent host) d

end Compiling

section Retouching

variable {before after : List Hint} {h h' : Hint} {p : Hint → Bool} {i : Interface}

theorem find?_insert (hp : p h = false) :
    (before ++ h :: after).find? p = (before ++ after).find? p := by
  rw [List.find?_append, List.find?_append, List.find?_cons_of_neg (by simp [hp])]

/-- With a hint in the place of another one, of which the same is asked and told. -/
theorem find?_replace {α : Type} (tell : Hint → α) (hp : p h' = p h) (ht : tell h' = tell h) :
    ((before ++ h' :: after).find? p).map tell = ((before ++ h :: after).find? p).map tell := by
  rw [List.find?_append, List.find?_append]
  cases before.find? p with
  | some b => rfl
  | none =>
      rw [Option.none_or, Option.none_or, List.find?_cons, List.find?_cons, hp]
      cases p h with
      | true => exact congrArg some ht
      | false => rfl

theorem selected?_insert (hn : (∀ id, ¬ Names i.subnet id) → ∀ n, Names i.network n →
    ¬ Names h.network n) :
    i.selected? (before ++ h :: after) = i.selected? (before ++ after) := by
  unfold Interface.selected?
  cases hs : present? i.subnet with
  | some id => rfl
  | none =>
      cases hnet : present? i.network with
      | none => rfl
      | some n =>
          have hh := hn (not_names_iff.2 hs) n (names_iff.2 hnet)
          rw [names_iff] at hh
          have hfind : networkHint? (before ++ h :: after) n = networkHint? (before ++ after) n :=
            find?_insert (decide_eq_false hh)
          simp only [hfind]

theorem heard_insert {id : String} (hs : ¬ Names h.subnet id) :
    heard (before ++ h :: after) id = heard (before ++ after) id := by
  rw [names_iff] at hs
  unfold heard subnetHint?
  rw [find?_insert (decide_eq_false hs)]

theorem alike_insert (hn : (∀ id, ¬ Names i.subnet id) → ∀ n, Names i.network n →
    ¬ Names h.network n) (hs : ∀ id, i.selected? (before ++ after) = some id → ¬ Names h.subnet id) :
    Interface.Alike (before ++ after) (before ++ h :: after) i i where
  network := rfl
  subnet := rfl
  selected := selected?_insert hn
  heard id hid := heard_insert (hs id hid)

theorem alike_remove (hn : (∀ id, ¬ Names i.subnet id) → ∀ n, Names i.network n →
    ¬ Names h.network n)
    (hs : ∀ id, i.selected? (before ++ h :: after) = some id → ¬ Names h.subnet id) :
    Interface.Alike (before ++ h :: after) (before ++ after) i i where
  network := rfl
  subnet := rfl
  selected := (selected?_insert hn).symm
  heard id hid := (heard_insert (hs id hid)).symm

theorem alike_blanks {i' : Interface} (hints : List Hint) (hn : Blanks i.network i'.network)
    (hs : Blanks i.subnet i'.subnet) : Interface.Alike hints hints i i' where
  network := hn.present?_eq
  subnet := hs.present?_eq
  selected := by
    unfold Interface.selected?
    rw [hn.present?_eq, hs.present?_eq]
  heard _ _ := rfl

theorem selected?_replace (hn : present? h'.network = present? h.network)
    (hs : present? h'.subnet = present? h.subnet) (i : Interface) :
    i.selected? (before ++ h' :: after) = i.selected? (before ++ h :: after) := by
  have hjoin : ∀ hint : Option Hint, (hint.bind fun h => present? h.subnet) =
      (hint.map fun h => present? h.subnet).join := by
    rintro (_ | h) <;> rfl
  unfold Interface.selected? networkHint?
  simp only [hjoin]
  cases hsub : present? i.subnet with
  | some id => rfl
  | none =>
      cases hnet : present? i.network with
      | none => rfl
      | some n =>
          simp only []
          rw [find?_replace _ (by rw [hn]) hs]

theorem alike_replace (hs : h.Same h') (i : Interface) :
    Interface.Alike (before ++ h :: after) (before ++ h' :: after) i i where
  network := rfl
  subnet := rfl
  selected := selected?_replace hs.network hs.subnet i
  heard id _ := find?_replace _ (by rw [hs.subnet]) (by rw [hs.address, hs.mac])

theorem Retouches.alike {r r' : Request} (hr : Retouches r r') : r.Alike r' := by
  cases hr with
  | @insert before after h hr hu =>
      refine ⟨rfl, rfl, rfl, ?_⟩
      rw [hr]
      refine List.forall₂_same.2 fun i hi => alike_insert (hu.network i hi) ?_
      rw [← hr]
      exact hu.subnet i hi
  | @remove before after h hr hu =>
      refine ⟨rfl, rfl, rfl, ?_⟩
      rw [hr]
      refine List.forall₂_same.2 fun i hi => alike_remove (hu.network i hi) ?_
      rw [← hr]
      exact hu.subnet i hi
  | @interface before after i i' hr hn hs =>
      have hsame (is : List Interface) : List.Forall₂ (Interface.Alike r.hints r.hints) is is :=
        List.forall₂_same.2 fun i _ => alike_blanks r.hints (.same _) (.same _)
      refine ⟨rfl, rfl, rfl, ?_⟩
      rw [hr]
      exact List.rel_append (hsame before) (.cons (alike_blanks r.hints hn hs) (hsame after))
  | @hint before after h h' hr hn hs ha hm =>
      refine ⟨rfl, rfl, rfl, ?_⟩
      rw [hr]
      exact List.forall₂_same.2 fun i _ =>
        alike_replace ⟨hn.present?_eq, hs.present?_eq, ha, hm.present?_eq⟩ i

theorem Unmatched.remaining {r : Request} (hu : r.Unmatched h) (hr : r.hints = before ++ h :: after) :
    { r with hints := before ++ after }.Unmatched h where
  network := hu.network
  subnet i hi id hid := by
    apply hu.subnet i hi id
    rw [hr, selected?_insert (hu.network i hi)]
    exact hid

/-- The order of the hints that match nothing does not matter either. -/
theorem Unmatched.moved {r : Request} (hu : r.Unmatched h) (hr : r.hints = before ++ h :: after)
    {before' after' : List Hint} (hsame : before ++ after = before' ++ after') :
    Relation.ReflTransGen Retouches r { r with hints := before' ++ h :: after' } := by
  have hremove := Retouches.remove r hr hu
  have hinsert := Retouches.insert { r with hints := before ++ after } hsame (hu.remaining hr)
  exact .tail (.single hremove) hinsert

end Retouching

theorem compile_of_retouched {World : Type} (host : Host World) (d : Defaults) {r r' : Request}
    (h : Relation.ReflTransGen Retouches r r') : r'.compile host d = r.compile host d := by
  induction h with
  | refl => rfl
  | tail _ hstep ih => rw [hstep.alike.compile host d, ih]

section Retouched

/-- A hint for another network, with an address that cannot be assigned. -/
def stray : Hint :=
  { network := some "other", subnet := some "far", address := some (.v4 10 0 0 5) }

def told : Hint := { network := some "net", subnet := some "sub" }

def plain : Request where
  flavour := "small"
  image := "linux"
  interfaces := [.onNetwork "net"]
  hints := [stray, told]

/-- The stray hint stands last, there are blanks around the network and the subnet, and the MAC
address is blank. -/
def retouched : Request :=
  { plain with
    interfaces := [{ network := some "net " }]
    hints := [{ told with subnet := some "\tsub", mac := some " " }, stray] }

theorem unmatched_stray : plain.Unmatched stray := by
  have hnet : present? (some "net") = some "net" := by decide +kernel
  have hother : present? stray.network ≠ some "net" := by decide +kernel
  have hsub : (Interface.onNetwork "net").selected? plain.hints = some "sub" := by decide +kernel
  have hfar : present? stray.subnet ≠ some "sub" := by decide +kernel
  constructor
  · intro i hi _ n hn
    rw [List.mem_singleton.1 hi, names_iff] at hn
    cases Option.some.inj (hnet.symm.trans hn)
    rwa [names_iff]
  · intro i hi id hid
    rw [List.mem_singleton.1 hi] at hid
    cases Option.some.inj (hsub.symm.trans hid)
    rwa [names_iff]

theorem retouches_plain : Relation.ReflTransGen Retouches plain retouched := by
  have hblank : isBlankText " " = true ∧ isBlankText "\t" = true ∧ isBlankText "" = true := by
    decide +kernel
  have hnet : Blanks (some "net") (some "net ") := by
    have h := Blanks.around "net" hblank.2.2 hblank.1
    rwa [show "" ++ "net" ++ " " = "net " by decide] at h
  have hsub : Blanks (some "sub") (some "\tsub") := by
    have h := Blanks.around "sub" hblank.2.1 hblank.2.2
    rwa [show "\t" ++ "sub" ++ "" = "\tsub" by decide] at h
  have hmove : Relation.ReflTransGen Retouches plain { plain with hints := [told] ++ stray :: [] } :=
    @Unmatched.moved [] [told] stray plain unmatched_stray rfl [told] [] rfl
  have hinterface := @Retouches.interface { plain with hints := [told, stray] } [] []
    (.onNetwork "net") { network := some "net " } rfl hnet (.same _)
  have hhint := @Retouches.hint
    { plain with interfaces := [{ network := some "net " }], hints := [told, stray] }
    [] [stray] told { told with subnet := some "\tsub", mac := some " " } rfl (.same _) hsub rfl
    (.filled hblank.1)
  exact .tail (.tail hmove hinterface) hhint

def furnished : Catalogue where
  flavours := .ofList [("small", ⟨"small", none, none, .ofList [
    ("kubevim.io/source", "kubevirt"), ("kubevim.io/instancetype-name", "u1.small")]⟩)]
  images := .ofList [("linux", ⟨"linux", "linux", 1, none⟩)]
  networks := .ofList [("net", ⟨"net", "net", .underlay, ∅⟩)]
  subnets := .ofList [("sub", ⟨"sub", some "net", none, .ofList [
    ("kubevim.io/subnet-name", "tenant"), ("kubevim.io/attachment-name", "default/tenant")]⟩)]

theorem compile_plain_eq_ok : ∃ spec,
    ((plain.compile (Platform.Memory.platform.host furnished) {}).run {}).1 = .ok spec ∧
      spec.links.map (·.name) = ["default", "tenant"] := by
  have hlinks : ((plain.compile (Platform.Memory.platform.host furnished) {}).run {}).1.map
      (fun spec => spec.links.map (·.name)) = .ok ["default", "tenant"] := by
    decide +kernel
  exact Except.map_eq_ok_iff.1 hlinks

/-- The request compiles, and retouched it compiles to the same. -/
theorem compile_retouched : Relation.ReflTransGen Retouches plain retouched ∧
    (∃ spec, ((plain.compile (Platform.Memory.platform.host furnished) {}).run {}).1 = .ok spec ∧
      spec.links.map (·.name) = ["default", "tenant"]) ∧
    retouched.compile (Platform.Memory.platform.host furnished) {} =
      plain.compile (Platform.Memory.platform.host furnished) {} :=
  ⟨retouches_plain, compile_plain_eq_ok, compile_of_retouched _ {} retouches_plain⟩

end Retouched

end VirtualInfra.Request
