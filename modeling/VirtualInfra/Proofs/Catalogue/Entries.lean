import VirtualInfra.Proofs.Catalogue.Acceptance

/-!
What is read of the entries of a node. Ids, sizes and kinds of sources come from the arguments; but
a count of processors, a value of metadata and a default are what is written first, so that a
property in front stands for the argument.
-/

namespace VirtualInfra.Catalogue

open Kdl

/-- Where a node stands: in the document itself, in a node of one of these kinds (a link is a
network or a subnet), or where nobody looks. -/
inductive Place where
  | document
  | flavour
  | image
  | link
  | metadata
  | defaults
  | unread
deriving DecidableEq

namespace Place

def below : Place → String → Place
  | .document, "defaults" => .defaults
  | .document, "flavour" | .document, "flavor" => .flavour
  | .document, "image" => .image
  | .document, "network" | .document, "subnet" => .link
  | .flavour, "metadata" | .link, "metadata" => .metadata
  | _, _ => .unread

def sourceKeys : Option Value → List String
  | some (.text "http") | some (.text "registry") => ["url"]
  | some (.text "pvc") => ["namespace", "name"]
  | _ => []

def keys : Place → Node → List String
  | .document, n =>
    match n.name with
    | "image" => ["name", "size"]
    | "network" => ["name", "type"]
    | "subnet" => ["network", "cidr"]
    | _ => []
  | .image, n => if n.name = "source" then sourceKeys n.firstArgument? else []
  | _, _ => []

/-- The value of a node is what is written first in it, be it an argument or a property. -/
def takesFirst : Place → String → Bool
  | .flavour, name => name = "vcpu"
  | .metadata, _ | .defaults, _ => true
  | _, _ => false

structure Agrees (p : Place) (n n' : Node) : Prop where
  name : n'.name = n.name
  first : p.takesFirst n.name = true → n'.firstValue? = n.firstValue?
  argument : p.takesFirst n.name = false → n'.firstArgument? = n.firstArgument?
  property : ∀ key ∈ p.keys n, n'.property? key = n.property? key

structure Same (p : Place) (n n' : Node) : Prop extends p.Agrees n n' where
  children : n'.children = n.children

inductive Annotated (p : Place) : Node → Node → Prop
  | mk (name : String) (front back : List Entry) (children : List Node) (key : String) (v : Value)
      (unread : key ∉ p.keys (.mk name (front ++ back) children)) :
      Annotated p (.mk name (front ++ back) children)
        (.mk name (front ++ ⟨some key, v⟩ :: back) children)

/-- It does not come first where the first entry is read. -/
structure Inserted (p : Place) (n n' : Node) : Prop where
  annotated : p.Annotated n n'
  behind : p.takesFirst n.name = true → n'.entries.head? = n.entries.head?

/-- A property stands first, where the first entry is read, instead of a sole argument. -/
inductive Overtaken (p : Place) : Node → Node → Prop
  | mk (name : String) (key : String) (v : Value) (rest : List Entry) (children : List Node)
      (h : p.takesFirst name = true) :
      Overtaken p (.mk name [⟨none, v⟩] children) (.mk name (⟨some key, v⟩ :: rest) children)

end Place

/-- A node is changed itself, or one below it is. -/
inductive Changed (change : Place → Node → Node → Prop) : Place → Node → Node → Prop
  | here {p : Place} {n n' : Node} (h : change p n n') : Changed change p n n'
  | inside {p : Place} {name : String} (entries : List Entry) (before after : List Node)
      {c c' : Node} (h : Changed change (p.below name) c c') :
      Changed change p (.mk name entries (before ++ c :: after))
        (.mk name entries (before ++ c' :: after))

section Insertion

variable {α : Type} {p : Place} {n n' : Node}

theorem find?_insert_of_neg {q : α → Bool} {a : α} (h : q a = false) (front back : List α) :
    (front ++ a :: back).find? q = (front ++ back).find? q := by
  rw [List.find?_append, List.find?_append, List.find?_cons_of_neg (ne_true_of_eq_false h)]

theorem Place.Annotated.firstArgument? (h : p.Annotated n n') :
    n'.firstArgument? = n.firstArgument? := by
  obtain ⟨name, front, back, children, other, v, -⟩ := h
  exact congrArg (Option.map _) (find?_insert_of_neg rfl front back)

theorem Place.Annotated.property? (h : p.Annotated n n') {key : String} (hkey : key ∈ p.keys n) :
    n'.property? key = n.property? key := by
  obtain ⟨name, front, back, children, other, v, hunread⟩ := h
  have hother : some other ≠ some key := fun hsame => hunread (Option.some.inj hsame ▸ hkey)
  refine congrArg (Option.map _) ?_
  change (front ++ _ :: back).reverse.find? _ = (front ++ back).reverse.find? _
  rw [List.reverse_append, List.reverse_append, List.reverse_cons, List.append_assoc]
  exact find?_insert_of_neg (q := fun e => decide (e.name = some key)) (a := ⟨some other, v⟩)
    (decide_eq_false hother) back.reverse front.reverse

theorem Place.Inserted.same (h : p.Inserted n n') : p.Same n n' where
  name := by
    obtain ⟨⟩ := h.annotated
    rfl
  children := by
    obtain ⟨⟩ := h.annotated
    rfl
  first hf := congrArg (Option.map _) (h.behind hf)
  argument _ := h.annotated.firstArgument?
  property _ hkey := h.annotated.property? hkey

theorem Place.keys_of_takesFirst (h : p.takesFirst n.name = true) : p.keys n = [] := by
  cases p with
  | flavour | metadata | defaults => rfl
  | document | image | link | unread => cases h

theorem Place.Overtaken.same (h : p.Overtaken n n') : p.Same n n' := by
  obtain ⟨name, key, v, rest, children, hfirst⟩ := h
  refine ⟨⟨rfl, fun _ => rfl, fun hnot => ?_, fun key hkey => ?_⟩, rfl⟩
  · rw [Node.name, hfirst] at hnot
    cases hnot
  · rw [Place.keys_of_takesFirst hfirst] at hkey
    cases hkey

theorem Place.Agrees.textProperty? (h : p.Agrees n n') {key : String} (hkey : key ∈ p.keys n) :
    n'.textProperty? key = n.textProperty? key := by
  rw [Node.textProperty?, Node.textProperty?, h.property key hkey]

theorem Changed.mono {change change' : Place → Node → Node → Prop}
    (himp : ∀ {p n n'}, change p n n' → change' p n n') (h : Changed change p n n') :
    Changed change' p n n' := by
  induction h with
  | here h => exact .here (himp h)
  | inside entries before after _ ih => exact .inside entries before after ih

end Insertion

section Readers

variable {p : Place} {n n' : Node}

namespace Changed

theorem agrees (h : Changed Place.Same p n n') : p.Agrees n n' := by
  cases h with
  | here h => exact h.toAgrees
  | inside entries before after h => exact ⟨rfl, fun _ => rfl, fun _ => rfl, fun _ _ => rfl⟩

/-- Of the children none differs, or one of them is changed in turn. -/
theorem children_cases (h : Changed Place.Same p n n') : n'.children = n.children ∨
    ∃ before after c c', Changed Place.Same (p.below n.name) c c' ∧
      n.children = before ++ c :: after ∧ n'.children = before ++ c' :: after := by
  cases h with
  | here h => exact .inl h.children
  | inside entries before after h => exact .inr ⟨before, after, _, _, h, rfl, rfl⟩

/-- A reader that goes through the children in turn. -/
theorem foldlM_children {α : Type} (h : Changed Place.Same p n n')
    {part : α → Node → Except Error α}
    (hpart : ∀ {c c'}, Changed Place.Same (p.below n.name) c c' → ∀ a, part a c' = part a c)
    (a : α) : n'.children.foldlM part a = n.children.foldlM part a := by
  obtain hc | ⟨before, after, c, c', hc, hn, hn'⟩ := h.children_cases
  · rw [hc]
  · rw [hn, hn']
    simp only [List.foldlM_append, List.foldlM_cons, hpart hc]

end Changed

theorem metadata_congr (h : Changed Place.Same p n n') (hp : p.below n.name = .metadata) :
    metadata n' = metadata n := by
  rw [metadata, metadata]
  obtain hc | ⟨before, after, c, c', hc, hn, hn'⟩ := h.children_cases
  · rw [hc]
  · rw [hp] at hc
    simp only [hn, hn', List.filterMap_append, List.filterMap_cons, hc.agrees.name,
      hc.agrees.first rfl]

theorem childMetadata_congr (h : Changed Place.Same p n n') (hp : p.below n.name = .link) :
    childMetadata n' = childMetadata n := by
  rw [childMetadata, childMetadata, Node.child?, Node.child?]
  obtain hc | ⟨before, after, c, c', hc, hn, hn'⟩ := h.children_cases
  · rw [hc]
  · rw [hp] at hc
    rw [hn, hn', List.find?_append, List.find?_append, List.find?_cons, List.find?_cons,
      hc.agrees.name]
    -- the changed child is the one that is found, unless another one stands before it
    by_cases hname : c.name = "metadata"
    · have hmeta : metadata c' = metadata c := metadata_congr hc (hname ▸ rfl)
      cases hfront : before.find? (·.name = "metadata") with
      | none => simp [hname, hmeta]
      | some first => rfl
    · simp [hname]

theorem recordId_congr (h : Changed Place.Same .document n n') : recordId n' = recordId n := by
  rw [recordId, recordId, h.agrees.name, h.agrees.argument rfl]

theorem flavourPart_congr (h : Changed Place.Same .flavour n n') (f : Flavour) :
    flavourPart f n' = flavourPart f n := by
  unfold flavourPart
  rw [h.agrees.name]
  split
  · next hn => rw [h.agrees.first (decide_eq_true hn)]
  · next hn => rw [h.agrees.argument (hn ▸ rfl)]
  · next hn => rw [metadata_congr h (hn ▸ rfl)]
  · rfl

theorem flavourOfNode_congr (h : Changed Place.Same .document n n')
    (hp : Place.below .document n.name = .flavour) : flavourOfNode n' = flavourOfNode n := by
  rw [flavourOfNode, flavourOfNode, recordId_congr h]
  refine bind_congr fun id => ?_
  exact h.foldlM_children (fun hc => flavourPart_congr (hp ▸ hc)) _

theorem eq_text_of_getD {x : Option Value} {kind : String}
    (h : (x >>= Value.text?).getD "" = kind) (hkind : kind ≠ "") : x = some (.text kind) := by
  subst h
  match x with
  | some (.text s) => rfl
  | none | some (.int _) | some .fractional | some (.bool _) | some .null => exact absurd rfl hkind

theorem imageSource_congr (h : Changed Place.Same .image n n') (hn : n.name = "source")
    (image : String) : imageSource image n' = imageSource image n := by
  have hkeys : Place.image.keys n = Place.sourceKeys n.firstArgument? := if_pos hn
  unfold imageSource
  rw [h.agrees.argument rfl]
  simp only
  split
  · next hkind =>
      rw [eq_text_of_getD hkind (by decide)] at hkeys
      rw [h.agrees.textProperty? (hkeys ▸ by decide)]
  · next hkind =>
      rw [eq_text_of_getD hkind (by decide)] at hkeys
      rw [h.agrees.textProperty? (hkeys ▸ by decide)]
  · next hkind =>
      rw [eq_text_of_getD hkind (by decide)] at hkeys
      rw [h.agrees.textProperty? (hkeys ▸ by decide), h.agrees.textProperty? (hkeys ▸ by decide)]
  · rfl

theorem imagePart_congr (h : Changed Place.Same .image n n') (i : Image) :
    imagePart i n' = imagePart i n := by
  rw [imagePart, imagePart, h.agrees.name]
  split
  · next hn => rw [imageSource_congr h hn]
  · rfl

theorem imageOfNode_congr (h : Changed Place.Same .document n n') (hn : n.name = "image") :
    imageOfNode n' = imageOfNode n := by
  have hkeys : Place.document.keys n = ["name", "size"] := by
    rw [Place.keys, hn]
    rfl
  have hparts (i : Image) : n'.children.foldlM imagePart i = n.children.foldlM imagePart i :=
    h.foldlM_children (fun hc => imagePart_congr (by rwa [hn] at hc)) i
  rw [imageOfNode, imageOfNode, recordId_congr h, h.agrees.property _ (hkeys ▸ by decide),
    h.agrees.textProperty? (hkeys ▸ by decide)]
  simp only [hparts]

theorem networkOfNode_congr (h : Changed Place.Same .document n n') (hn : n.name = "network") :
    networkOfNode n' = networkOfNode n := by
  have hkeys : Place.document.keys n = ["name", "type"] := by
    rw [Place.keys, hn]
    rfl
  have hkind (id : String) : networkKind id n' = networkKind id n := by
    rw [networkKind, networkKind, h.agrees.textProperty? (hkeys ▸ by decide)]
  rw [networkOfNode, networkOfNode, recordId_congr h, h.agrees.textProperty? (hkeys ▸ by decide),
    childMetadata_congr h (hn ▸ rfl)]
  simp only [hkind]

theorem subnetOfNode_congr (h : Changed Place.Same .document n n') (hn : n.name = "subnet") :
    subnetOfNode n' = subnetOfNode n := by
  have hkeys : Place.document.keys n = ["network", "cidr"] := by
    rw [Place.keys, hn]
    rfl
  rw [subnetOfNode, subnetOfNode, recordId_congr h, h.agrees.textProperty? (hkeys ▸ by decide),
    h.agrees.textProperty? (hkeys ▸ by decide), childMetadata_congr h (hn ▸ rfl)]

theorem defaultsOfNode_congr (h : Changed Place.Same .document n n') (hn : n.name = "defaults") :
    defaultsOfNode n' = defaultsOfNode n := by
  rw [defaultsOfNode, defaultsOfNode]
  obtain hc | ⟨before, after, c, c', hc, hns, hns'⟩ := h.children_cases
  · rw [hc]
  · rw [hn] at hc
    simp only [hns, hns', List.mapM_append, List.mapM_cons, hc.agrees.name, hc.agrees.first rfl]

theorem Content.ofNode_congr (h : Changed Place.Same .document n n') : ofNode n' = ofNode n := by
  unfold ofNode
  rw [h.agrees.name]
  split
  · next hn => rw [defaultsOfNode_congr h hn]
  · next hn => rw [flavourOfNode_congr h (hn ▸ rfl)]
  · next hn => rw [flavourOfNode_congr h (hn ▸ rfl)]
  · next hn => rw [imageOfNode_congr h hn]
  · next hn => rw [networkOfNode_congr h hn]
  · next hn => rw [subnetOfNode_congr h hn]
  · rfl

theorem ofNodes_congr (h : Changed Place.Same .document n n') (before after : List Node) :
    ofNodes (before ++ n' :: after) = ofNodes (before ++ n :: after) := by
  have hadd (c : Catalogue) : c.addNode n' = c.addNode n := by
    rw [addNode_eq_bind, addNode_eq_bind, Content.ofNode_congr h]
  rw [ofNodes, ofNodes]
  simp only [List.foldlM_append, List.foldlM_cons, hadd]

end Readers

section Notes

structure ReadsEntries (before after : List Node) : Prop where
  inserted : ∀ n n', Changed Place.Inserted .document n n' →
    ofNodes (before ++ n' :: after) = ofNodes (before ++ n :: after)
  overtaken : ∀ n n', Changed Place.Overtaken .document n n' →
    ofNodes (before ++ n' :: after) = ofNodes (before ++ n :: after)
  id_argument : ∀ n a, Content.ofNode n = .ok (.record a) → n.firstArgument? = some (.text a.id)

/-- A property that nobody reads means nothing, unless it stands first where the first entry is
read: there it is read as the argument. -/
theorem readsEntries (before after : List Node) : ReadsEntries before after where
  inserted _ _ h := ofNodes_congr (h.mono Place.Inserted.same) before after
  overtaken _ _ h := ofNodes_congr (h.mono Place.Overtaken.same) before after
  id_argument n a h := by
    obtain ⟨hid, -⟩ := recordId_eq_ok_iff.1 (recordId_of_record h)
    obtain ⟨v, hv, htext⟩ := Option.bind_eq_some_iff.1 hid
    match v with
    | .text s =>
        cases htext
        exact hv

def note (v : Value) : Entry := ⟨some "note", v⟩

def argument (v : Value) : Entry := ⟨none, v⟩

def namespaceNode (entries : List Entry) : Node :=
  .mk "defaults" [] [.mk "namespace" entries []]

def processorsNode (entries : List Entry) : Node :=
  .mk "flavour" [argument (.text "small")] [.mk "vcpu" entries []]

def labelNode (entries : List Entry) : Node :=
  .mk "flavour" [argument (.text "small")]
    [.mk "metadata" [] [.mk "kubevim.io/source" entries []]]

theorem exists_ok_of_eq {x y : Except Error Catalogue} (h : x = y) (hy : y.isOk = true) :
    ∃ c, x = .ok c ∧ y = .ok c := by
  cases y with
  | error e => cases hy
  | ok c => exact ⟨c, h, rfl⟩

theorem readsEntries_noted :
    (∃ c, ofNodes [.mk "flavour" [note .null, argument (.text "small")] []] = .ok c ∧
      ofNodes [.mk "flavour" [argument (.text "small")] []] = .ok c) ∧
    ∃ c, ofNodes [processorsNode [note (.int 8), argument (.int 2)]] = .ok c ∧
      ofNodes [processorsNode [argument (.int 8)]] = .ok c := by
  have hid : Place.document.Inserted (.mk "flavour" [argument (.text "small")] [])
      (.mk "flavour" [note .null, argument (.text "small")] []) :=
    ⟨.mk "flavour" [] [argument (.text "small")] [] "note" .null (by decide), nofun⟩
  have hvcpu : Changed Place.Overtaken .document (processorsNode [argument (.int 8)])
      (processorsNode [note (.int 8), argument (.int 2)]) :=
    .inside _ [] [] (.here (.mk "vcpu" "note" (.int 8) [argument (.int 2)] [] rfl))
  exact ⟨exists_ok_of_eq ((readsEntries [] []).inserted _ _ (.here hid)) (by decide +kernel),
    exists_ok_of_eq ((readsEntries [] []).overtaken _ _ hvcpu) (by decide +kernel)⟩

/-- A note in front of the argument changes what the document says. -/
def Misread (node : List Entry → Node) (v w : Value) : Prop :=
  Changed Place.Annotated .document (node [argument w]) (node [note v, argument w]) ∧
    ofNodes [node [note v, argument w]] ≠ ofNodes [node [argument w]]

theorem misread_note :
    Misread namespaceNode (.int 1) (.text "vim") ∧
    Misread processorsNode (.int 8) (.int 2) ∧
    Misread labelNode (.text "draft") (.text "kubevirt") := by
  refine ⟨⟨?_, by decide +kernel⟩, ⟨?_, by decide +kernel⟩, ⟨?_, by decide +kernel⟩⟩
  · exact .inside _ [] [] (.here (.mk "namespace" [] [argument _] [] "note" _ nofun))
  · exact .inside _ [] [] (.here (.mk "vcpu" [] [argument _] [] "note" _ nofun))
  · exact .inside _ [] [] (.inside _ [] []
      (.here (.mk "kubevim.io/source" [] [argument _] [] "note" _ nofun)))

end Notes

end VirtualInfra.Catalogue
