import VirtualInfra.Proofs.Catalogue.Acceptance

namespace VirtualInfra.Catalogue

variable {c c' : Catalogue} {n n' : Kdl.Node} {ns ns' : List Kdl.Node}

/-- A catalogue is its defaults and what it has under each id. -/
theorem ext_record? (hd : c.defaults = c'.defaults) (h : ∀ k id, c.record? k id = c'.record? k id) :
    c = c' := by
  obtain ⟨defaults, flavours, images, networks, subnets⟩ := c
  obtain ⟨defaults', flavours', images', networks', subnets'⟩ := c'
  congr 1
  · exact Table.ext fun id =>
      Option.map_injective (fun _ _ he => Addition.flavour.inj he) (h .flavour id)
  · exact Table.ext fun id =>
      Option.map_injective (fun _ _ he => Addition.image.inj he) (h .image id)
  · exact Table.ext fun id =>
      Option.map_injective (fun _ _ he => Addition.network.inj he) (h .network id)
  · exact Table.ext fun id =>
      Option.map_injective (fun _ _ he => Addition.subnet.inj he) (h .subnet id)

theorem add_eq_ok_iff {a : Addition} :
    a.add c = .ok c' ↔ c.record? a.kind a.id = none ∧ a.put c = c' := by
  rw [add_eq_ite]
  split
  · next h =>
      rw [Option.isSome_iff_ne_none] at h
      exact ⟨nofun, fun he => absurd he.1 h⟩
  · next h =>
      rw [Option.not_isSome_iff_eq_none] at h
      exact ⟨fun he => ⟨h, Except.ok.inj he⟩, fun he => congrArg Except.ok he.2⟩

theorem defaults_put (a : Addition) (c : Catalogue) : (a.put c).defaults = c.defaults := by
  cases a <;> rfl

namespace Content

variable {t t' : Content}

def put (c : Catalogue) : Content → Catalogue
  | .defaults d => { c with defaults := d }
  | .record a => a.put c
  | .nothing => c

def Fits (c : Catalogue) : Content → Prop
  | .defaults _ => True
  | .record a => c.record? a.kind a.id = none
  | .nothing => True

def Apart : Content → Content → Prop
  | .record a, .record b => ¬ (a.kind = b.kind ∧ a.id = b.id)
  | _, _ => True

theorem Apart.symm (h : t.Apart t') : t'.Apart t := by
  cases t <;> cases t' <;> first | trivial | exact fun he => h ⟨he.1.symm, he.2.symm⟩

theorem enter_eq_ok_iff : t.enter c = .ok c' ↔ t.Fits c ∧ t.put c = c' := by
  cases t with
  | defaults d => exact ⟨fun h => ⟨trivial, Except.ok.inj h⟩, fun h => congrArg Except.ok h.2⟩
  | record a => exact add_eq_ok_iff
  | nothing => exact ⟨fun h => ⟨trivial, Except.ok.inj h⟩, fun h => congrArg Except.ok h.2⟩

theorem fits_put_iff : t'.Fits (t.put c) ↔ t'.Fits c ∧ t.Apart t' := by
  cases t' with
  | defaults | nothing => cases t <;> exact ⟨fun _ => ⟨trivial, trivial⟩, fun _ => trivial⟩
  | record b =>
      cases t with
      | nothing => exact ⟨fun h => ⟨h, trivial⟩, And.left⟩
      | defaults d =>
          have hsame : ({ c with defaults := d } : Catalogue).record? b.kind b.id =
              c.record? b.kind b.id := by
            cases b <;> rfl
          change _ = none ↔ _ = none ∧ True
          rw [put, hsame, and_true]
      | record a =>
          change (a.put c).record? b.kind b.id = none ↔ c.record? b.kind b.id = none ∧ ¬ _
          rw [record?_put]
          split
          · next h => exact ⟨nofun, fun he => absurd h he.2⟩
          · next h => exact ⟨fun he => ⟨he, h⟩, And.left⟩

/-- Only defaults replace each other. -/
theorem put_comm (hd : ∀ d d', ¬ (t = .defaults d ∧ t' = .defaults d')) (h : t.Apart t') :
    t'.put (t.put c) = t.put (t'.put c) := by
  cases t with
  | nothing => rfl
  | defaults d =>
      cases t' with
      | nothing => rfl
      | defaults d' => exact absurd ⟨rfl, rfl⟩ (hd d d')
      | record b => cases b <;> rfl
  | record a =>
      cases t' with
      | nothing => rfl
      | defaults d => cases a <;> rfl
      | record b =>
          apply ext_record?
          · simp only [put, defaults_put]
          · intro k id
            simp only [put, record?_put]
            split
            · next hb => rw [if_neg fun ha => h ⟨ha.1.trans hb.1.symm, ha.2.trans hb.2.symm⟩]
            · rfl

theorem enter_enter_eq_ok_iff : (do t'.enter (← t.enter c)) = .ok c' ↔
    (t.Fits c ∧ t'.Fits c ∧ t.Apart t') ∧ t'.put (t.put c) = c' := by
  rw [Except.bind_eq_ok_iff]
  constructor
  · rintro ⟨c₁, h, h'⟩
    obtain ⟨hfits, rfl⟩ := enter_eq_ok_iff.1 h
    obtain ⟨hfits', hput⟩ := enter_eq_ok_iff.1 h'
    exact ⟨⟨hfits, fits_put_iff.1 hfits'⟩, hput⟩
  · rintro ⟨⟨hfits, hfits'⟩, hput⟩
    exact ⟨t.put c, enter_eq_ok_iff.2 ⟨hfits, rfl⟩,
      enter_eq_ok_iff.2 ⟨fits_put_iff.2 hfits', hput⟩⟩

theorem enter_comm (hd : ∀ d d', ¬ (t = .defaults d ∧ t' = .defaults d'))
    (h : (do t'.enter (← t.enter c)) = .ok c') : (do t.enter (← t'.enter c)) = .ok c' := by
  obtain ⟨⟨hfits, hfits', hapart⟩, hput⟩ := enter_enter_eq_ok_iff.1 h
  rw [put_comm hd hapart] at hput
  exact enter_enter_eq_ok_iff.2 ⟨⟨hfits', hfits, hapart.symm⟩, hput⟩

end Content

section Nodes

theorem addNode_eq_ok_iff :
    c.addNode n = .ok c' ↔ ∃ t, Content.ofNode n = .ok t ∧ t.enter c = .ok c' := by
  rw [addNode_eq_bind, Except.bind_eq_ok_iff]

theorem name_of_defaults {d : Defaults} (h : Content.ofNode n = .ok (.defaults d)) :
    n.name = "defaults" := by
  rw [Content.ofNode] at h
  split at h
  · next hn => exact hn
  all_goals simp [Except.map_eq_ok_iff] at h

theorem addNode_addNode_of_swap (hd : ¬ (n.name = "defaults" ∧ n'.name = "defaults"))
    (h : (do (← c.addNode n).addNode n') = .ok c') : (do (← c.addNode n').addNode n) = .ok c' := by
  obtain ⟨c₁, h₁, h₂⟩ := Except.bind_eq_ok_iff.1 h
  obtain ⟨t, ht, h₁⟩ := addNode_eq_ok_iff.1 h₁
  obtain ⟨t', ht', h₂⟩ := addNode_eq_ok_iff.1 h₂
  have hswap : (do t.enter (← t'.enter c)) = .ok c' := by
    refine Content.enter_comm ?_ (Except.bind_eq_ok_iff.2 ⟨c₁, h₁, h₂⟩)
    rintro d d' ⟨rfl, rfl⟩
    exact hd ⟨name_of_defaults ht, name_of_defaults ht'⟩
  obtain ⟨c₂, h₁, h₂⟩ := Except.bind_eq_ok_iff.1 hswap
  exact Except.bind_eq_ok_iff.2
    ⟨c₂, addNode_eq_ok_iff.2 ⟨t', ht', h₁⟩, addNode_eq_ok_iff.2 ⟨t, ht, h₂⟩⟩

theorem commutes_addNode (hd : ¬ (n.name = "defaults" ∧ n'.name = "defaults")) :
    Except.Commutes addNode n n' := fun _ _ =>
  ⟨addNode_addNode_of_swap hd, addNode_addNode_of_swap fun h => hd h.symm⟩

/-- The name of a node is not read for its id, except to complain that there is none. -/
theorem addNode_flavor_eq_ok_iff {es : List Kdl.Entry} {cs : List Kdl.Node} :
    c.addNode (.mk "flavor" es cs) = .ok c' ↔ c.addNode (.mk "flavour" es cs) = .ok c' := by
  change flavourOfNode _ >>= c.addFlavour = _ ↔ flavourOfNode _ >>= c.addFlavour = _
  simp only [flavourOfNode, Except.bind_eq_ok_iff, recordId_eq_ok_iff]
  rfl

end Nodes

section Documents

def defaultsCount (ns : List Kdl.Node) : Nat :=
  ns.countP fun n => n.name = "defaults"

/-- A document is changed in ways that should not matter. Of several nodes that set the defaults the
last one counts, so a document with more than one keeps its order. -/
inductive Rearranged : List Kdl.Node → List Kdl.Node → Prop where
  | permuted {ns ns' : List Kdl.Node} (hone : defaultsCount ns ≤ 1) (h : ns.Perm ns') :
      Rearranged ns ns'
  | unknown (before after : List Kdl.Node) {n : Kdl.Node} (h : n.name ∉ nodeNames) :
      Rearranged (before ++ after) (before ++ n :: after)
  | respelled (before after : List Kdl.Node) (es : List Kdl.Entry) (cs : List Kdl.Node) :
      Rearranged (before ++ .mk "flavour" es cs :: after) (before ++ .mk "flavor" es cs :: after)
  | trans {ns ns' ns'' : List Kdl.Node} (h : Rearranged ns ns') (h' : Rearranged ns' ns'') :
      Rearranged ns ns''

theorem pairwise_of_defaultsCount (h : defaultsCount ns ≤ 1) :
    ns.Pairwise fun n n' => ¬ (n.name = "defaults" ∧ n'.name = "defaults") := by
  induction ns with
  | nil => exact .nil
  | cons n ns ih =>
      rw [defaultsCount, List.countP_cons] at h
      refine List.pairwise_cons.2 ⟨?_, ih (le_trans (Nat.le_add_right _ _) h)⟩
      rintro n' hn' ⟨hd, hd'⟩
      have hpos : 0 < ns.countP fun n => n.name = "defaults" :=
        List.countP_pos_iff.2 ⟨n', hn', decide_eq_true hd'⟩
      rw [if_pos (decide_eq_true hd)] at h
      omega

theorem Rearranged.foldlM_addNode_eq_ok_iff (h : Rearranged ns ns') :
    ns.foldlM addNode c = .ok c' ↔ ns'.foldlM addNode c = .ok c' := by
  induction h with
  | permuted hone h =>
      exact Except.foldlM_eq_ok_iff_of_perm h
        ((pairwise_of_defaultsCount hone).imp commutes_addNode)
  | unknown before after h =>
      rw [Except.foldlM_append_cons_eq_ok_iff, List.foldlM_append, Except.bind_eq_ok_iff]
      refine exists_congr fun c₁ => and_congr_right fun _ => ?_
      rw [addNode_of_unknown h]
      exact ⟨fun h => ⟨c₁, rfl, h⟩, fun ⟨_, he, h⟩ => Except.ok.inj he ▸ h⟩
  | respelled before after es cs =>
      simp only [Except.foldlM_append_cons_eq_ok_iff, addNode_flavor_eq_ok_iff]
  | trans _ _ ih ih' => exact ih.trans ih'

theorem ofNodes_eq_ok_iff :
    ofNodes ns = .ok c ↔ ns.foldlM addNode {} = .ok c ∧ c.validate = .ok () := by
  simp only [ofNodes, Except.bind_eq_ok_iff, Except.pure_eq_ok_iff]
  constructor
  · rintro ⟨c, hns, ⟨⟩, hv, rfl⟩
    exact ⟨hns, hv⟩
  · rintro ⟨hns, hv⟩
    exact ⟨c, hns, (), hv, rfl⟩

structure MeanAlike (ns ns' : List Kdl.Node) : Prop where
  nodes : ∀ c, ofNodes ns = .ok c ↔ ofNodes ns' = .ok c
  texts : ∀ text text', Kdl.ofText? text = some ns → Kdl.ofText? text' = some ns' →
    ∀ c, ofText text = .ok c ↔ ofText text' = .ok c

theorem meanAlike_of_rearranged (h : Rearranged ns ns') : MeanAlike ns ns' := by
  have hnodes (c : Catalogue) : ofNodes ns = .ok c ↔ ofNodes ns' = .ok c := by
    rw [ofNodes_eq_ok_iff, ofNodes_eq_ok_iff, h.foldlM_addNode_eq_ok_iff]
  refine ⟨hnodes, fun text text' ht ht' c => ?_⟩
  rw [ofText, ofText, ht, ht']
  exact hnodes c

end Documents

section Disorder

def defaultsNode : Kdl.Node :=
  .mk "defaults" [] [.mk "namespace" [⟨none, .text "vim"⟩] []]

def networkNode : Kdl.Node :=
  .mk "network" [⟨none, .text "net"⟩, ⟨some "type", .text "overlay"⟩] []

def subnetNode : Kdl.Node :=
  .mk "subnet" [⟨none, .text "sub"⟩, ⟨some "network", .text "net"⟩] []

def flavourNode (name : String) : Kdl.Node :=
  .mk name [⟨none, .text "small"⟩] []

def noteNode : Kdl.Node :=
  .mk "note" [⟨none, .text "later"⟩] []

def orderedNodes : List Kdl.Node :=
  [defaultsNode, networkNode, subnetNode, flavourNode "flavour"]

def disorderedNodes : List Kdl.Node :=
  [subnetNode, noteNode, flavourNode "flavor", networkNode, defaultsNode]

theorem rearranged_nodes : Rearranged orderedNodes disorderedNodes := by
  let turned := [subnetNode, flavourNode "flavour", networkNode, defaultsNode]
  have hperm : orderedNodes.Perm turned := by
    have hfront : orderedNodes.Perm
        ([networkNode, defaultsNode] ++ [subnetNode, flavourNode "flavour"]) := .swap _ _ _
    exact hfront.trans List.perm_append_comm
  have hone : defaultsCount orderedNodes ≤ 1 := by decide
  have hnote : Rearranged turned ([subnetNode] ++ noteNode :: turned.tail) :=
    .unknown [subnetNode] turned.tail (by decide)
  exact .trans (.permuted hone hperm)
    (.trans hnote (.respelled [subnetNode, noteNode] [networkNode, defaultsNode] _ _))

theorem meanAlike_disordered : Rearranged orderedNodes disorderedNodes ∧
    MeanAlike orderedNodes disorderedNodes ∧
    ∃ c, ofNodes orderedNodes = .ok c ∧ ofNodes disorderedNodes = .ok c := by
  have halike := meanAlike_of_rearranged rearranged_nodes
  refine ⟨rearranged_nodes, halike, ?_⟩
  have haccepted : (ofNodes orderedNodes).isOk = true := by decide +kernel
  cases hc : ofNodes orderedNodes with
  | error e =>
      rw [hc] at haccepted
      cases haccepted
  | ok c => exact ⟨c, rfl, (halike.nodes c).1 hc⟩

example : ofText "subnet sub network=net\nflavor small\nnote later\nnetwork net type=overlay" =
    ofText "network net type=overlay\nflavour small\nsubnet sub network=net" := by
  decide +kernel

end Disorder

end VirtualInfra.Catalogue
