import VirtualInfra.Proofs.Catalogue.Acceptance
import VirtualInfra.Proofs.Projection

/-!
What is seen of any machine, whether or not its spec was ever compiled. Reported interfaces, nics and
links are matched by their names, and of several with one name the first one counts. A view has just
the reported interfaces that the spec knows, and it fails at the first of them that does not fit.
-/

namespace VirtualInfra

open Catalogue

def FirstNamed {α : Type} (name : α → String) (k : String) (as : List α) (a : α) : Prop :=
  ∃ before after, as = before ++ a :: after ∧ name a = k ∧ ∀ b ∈ before, name b ≠ k

section Named

variable {α : Type} {name : α → String} {k : String} {as : List α} {a : α}

theorem firstNamed_iff : FirstNamed name k as a ↔ as.find? (fun b => name b = k) = some a := by
  rw [List.find?_eq_some_iff_append]
  simp only [FirstNamed, decide_eq_true_eq, Bool.not_eq_true', decide_eq_false_iff_not]
  constructor
  · rintro ⟨before, after, hsplit, ha, hb⟩
    exact ⟨ha, before, after, hsplit, hb⟩
  · rintro ⟨ha, before, after, hsplit, hb⟩
    exact ⟨before, after, hsplit, ha, hb⟩

theorem FirstNamed.unique {a' : α} (h : FirstNamed name k as a) (h' : FirstNamed name k as a') :
    a = a' :=
  Option.some.inj ((firstNamed_iff.1 h).symm.trans (firstNamed_iff.1 h'))

end Named

/-- The subnet that an attachment belongs to: of several the one with the least id. -/
def Catalogue.Serves (c : Catalogue) (attachment : String) (s : Subnet) : Prop :=
  ∃ id, c.subnets.get? id = some s ∧ Carries s .attachment attachment ∧
    ∀ id' s', id' < id → c.subnets.get? id' = some s' → ¬ Carries s' .attachment attachment

theorem Catalogue.serves_iff {c : Catalogue} {attachment : String} {s : Subnet} :
    c.Serves attachment s ↔ c.subnet (.byAttachment attachment) = .ok s := by
  rw [Catalogue.subnet, found_eq_ok_iff, Catalogue.select?, subnetNamed?,
    Table.find?_values_eq_some_iff]
  simp only [Serves, decide_eq_true_eq, decide_eq_false_iff_not, value?_eq_some_iff]

namespace Machine

def Link.sources (l : Link) : List Link.Source :=
  (if l.pod then [.pod] else []) ++ l.attachment.toList.map .attachment

def Nic.bindings (n : Nic) : List Nic.Binding :=
  (if n.masquerade then [.masquerade] else []) ++ (if n.bridge then [.bridge] else []) ++
    if n.sriov then [.sriov] else []

def Spec.knows (s : Spec) (live : Instance.Nic) : Bool := s.nics.any (·.name = live.name)

def bareView (m : Machine) (live : Instance.Nic) (nic : Nic) (b : Nic.Binding) : Resource.Nic where
  id := live.name
  owner := m.uid
  network := none
  subnet := none
  addresses := if live.addresses = [] then live.address.toList else live.addresses
  mac := live.mac.or nic.mac
  type := if b = .sriov then .sriov else .bridge
  metadata := ∅

/-- How a reported interface is seen that the spec knows, by the first rule that applies. -/
inductive Sees (c : Catalogue) (m : Machine) (live : Instance.Nic) :
    Except Fault.Kind Resource.Nic → Prop
  | unmatched (none : ∀ l ∈ m.spec.links, l.name ≠ live.name) : Sees c m live (.error .internal)
  | unbound {nic : Nic} {link : Link} (first : FirstNamed Nic.name live.name m.spec.nics nic)
      (matched : FirstNamed Link.name live.name m.spec.links link)
      (binding : ∀ b, nic.bindings ≠ [b]) : Sees c m live (.error .internal)
  | unsourced {nic : Nic} {link : Link} {b : Nic.Binding}
      (first : FirstNamed Nic.name live.name m.spec.nics nic)
      (matched : FirstNamed Link.name live.name m.spec.links link) (binding : nic.bindings = [b])
      (source : ∀ s, link.sources ≠ [s]) : Sees c m live (.error .internal)
  | lost {nic : Nic} {link : Link} {b : Nic.Binding} {attachment : String}
      (first : FirstNamed Nic.name live.name m.spec.nics nic)
      (matched : FirstNamed Link.name live.name m.spec.links link) (binding : nic.bindings = [b])
      (source : link.sources = [.attachment attachment]) (subnet : ∀ s, ¬ c.Serves attachment s) :
      Sees c m live (.error .notFound)
  | management {nic : Nic} {link : Link} {b : Nic.Binding}
      (first : FirstNamed Nic.name live.name m.spec.nics nic)
      (matched : FirstNamed Link.name live.name m.spec.links link) (binding : nic.bindings = [b])
      (source : link.sources = [.pod]) :
      Sees c m live (.ok { bareView m live nic b with
        metadata := .ofList [(managementKey, "true")] })
  | attached {nic : Nic} {link : Link} {b : Nic.Binding} {attachment : String} {s : Subnet}
      (first : FirstNamed Nic.name live.name m.spec.nics nic)
      (matched : FirstNamed Link.name live.name m.spec.links link) (binding : nic.bindings = [b])
      (source : link.sources = [.attachment attachment]) (subnet : c.Serves attachment s) :
      Sees c m live (.ok { bareView m live nic b with subnet := some s.id, network := s.parent })

def SeesAll (c : Catalogue) (m : Machine) (lives : List Instance.Nic) :
    Except Fault.Kind (List Resource.Nic) → Prop
  | .ok views => List.Forall₂ (fun live view => Sees c m live (.ok view)) lives views
  | .error k => ∃ before live after views, lives = before ++ live :: after ∧
      List.Forall₂ (fun live view => Sees c m live (.ok view)) before views ∧
        Sees c m live (.error k)

/-- The parts of the spec that belong to a reported interface agree with each other: its nic has
just one binding, its link has just one source, and an attachment has a subnet. -/
structure Consistent (c : Catalogue) (m : Machine) (live : Instance.Nic) : Prop where
  bound : ∃ nic b, FirstNamed Nic.name live.name m.spec.nics nic ∧ nic.bindings = [b]
  sourced : ∃ link source, FirstNamed Link.name live.name m.spec.links link ∧
    link.sources = [source] ∧ ∀ attachment, source = .attachment attachment →
      ∃ s, c.Serves attachment s

def Spec.Labelled (s : Spec) (key value : String) : Prop :=
  s.labels.get? key = some value ∧ value ≠ ""

def known (m : Machine) (i : Option Instance) : List Instance.Nic :=
  (i.elim [] (·.nics)).filter m.spec.knows

def Spec.Identified (s : Spec) : Prop :=
  (∃ flavour, s.Labelled flavourLabel flavour) ∧ ∃ image, s.Labelled imageLabel image

/-- A view has just the known interfaces, and there is one exactly when flavour and image are known
and the spec is consistent about each of them. -/
structure Reconstructs (c : Catalogue) (m : Machine) (i : Option Instance)
    (x : Except Fault Resource) : Prop where
  succeeds : (∃ r, x = .ok r) ↔ m.spec.Identified ∧ ∀ live ∈ m.known i, Consistent c m live
  labels : ∀ r, x = .ok r →
    m.spec.Labelled flavourLabel r.flavour ∧ m.spec.Labelled imageLabel r.image
  nics : ∀ r, x = .ok r → SeesAll c m (m.known i) (.ok r.nics)
  unidentified : ∀ f, x = .error f → ¬ m.spec.Identified → f.kind = .internal
  broken : ∀ f, x = .error f → m.spec.Identified → SeesAll c m (m.known i) (.error f.kind)

section Choices

theorem source?_eq_some_iff {l : Link} {s : Link.Source} : l.source? = some s ↔ l.sources = [s] := by
  rcases l with ⟨name, pod, attachment⟩
  cases pod <;> cases attachment <;> simp [Link.source?, Link.sources]

theorem binding?_eq_some_iff {n : Nic} {b : Nic.Binding} :
    n.binding? = some b ↔ n.bindings = [b] := by
  rcases n with ⟨name, masquerade, bridge, sriov, mac⟩
  cases masquerade <;> cases bridge <;> cases sriov <;> simp [Nic.binding?, Nic.bindings]

theorem nicType_of_bindings {n : Nic} {b : Nic.Binding} (h : n.bindings = [b]) :
    nicType n = .ok (if b = .sriov then .sriov else .bridge) := by
  rw [nicType, binding?_eq_some_iff.2 h]
  cases b <;> rfl

theorem nicType_of_unbound {n : Nic} (h : ∀ b, n.bindings ≠ [b]) :
    nicType n = .error (Fault.Cause.unboundNic n.name) := by
  rw [nicType]
  cases hb : n.binding? with
  | none => rfl
  | some b => exact absurd (binding?_eq_some_iff.1 hb) (h b)

theorem source?_of_unsourced {l : Link} (h : ∀ s, l.sources ≠ [s]) : l.source? = none := by
  cases hs : l.source? with
  | none => rfl
  | some s => exact absurd (source?_eq_some_iff.1 hs) (h s)

end Choices

theorem kind_of_found {α : Type} {subject : Fault.Subject} {id : String} {x : Option α} {f : Fault}
    (h : found subject id x = .error f) : f.kind = .notFound := by
  cases x with
  | some a => cases h
  | none =>
      cases h
      rfl

section Running

variable {World : Type} (p : Platform World) (w : World) {c : Catalogue} {m : Machine}
  {live : Instance.Nic}

theorem knows_iff : m.spec.knows live = true ↔
    ∃ nic, FirstNamed Nic.name live.name m.spec.nics nic := by
  simp only [firstNamed_iff, ← Option.isSome_iff_exists, List.find?_isSome, Spec.knows,
    List.any_eq_true]

theorem run_projectNic_unknown (h : m.spec.knows live = false) :
    (projectNic (p.host c) m live).run w = (.ok none, w) := by
  have hnone : m.spec.nic? live.name = none := by
    rw [Spec.knows, List.any_eq_false] at h
    exact List.find?_eq_none.2 h
  rw [projectNic]
  rw [hnone]
  rfl

theorem run_race_attachment (stage attachment : String) :
    (((p.host c).race "get subnet" (.subnet (.byAttachment attachment))).within stage).run w =
      (Fault.mark stage (c.subnet (.byAttachment attachment)), w) := by
  rw [Act.run_within, p.run_race_host c]
  rfl

theorem Sees.of_missing {nic : Nic} {link : Link} {b : Nic.Binding} {attachment : String}
    {f : Fault} (first : FirstNamed Nic.name live.name m.spec.nics nic)
    (matched : FirstNamed Link.name live.name m.spec.links link) (binding : nic.bindings = [b])
    (source : link.sources = [.attachment attachment])
    (h : c.subnet (.byAttachment attachment) = .error f) : Sees c m live (.error f.kind) := by
  rw [kind_of_found h]
  refine .lost first matched binding source fun s hs => ?_
  rw [serves_iff.1 hs] at h
  cases h

theorem sees_of_run (h : m.spec.knows live = true) :
    ∃ x : Except Fault Resource.Nic, (projectNic (p.host c) m live).run w = (x.map some, w) ∧
      Sees c m live (x.mapError Fault.kind) := by
  obtain ⟨nic, first⟩ := knows_iff.1 h
  have hnic : m.spec.nic? live.name = some nic := firstNamed_iff.1 first
  rw [projectNic]
  rw [hnic]
  simp only []
  cases hlink : m.spec.link? live.name with
  | none =>
      refine ⟨.error (Fault.Cause.unmatchedNic live.name), rfl, .unmatched fun l hl => ?_⟩
      simpa using List.find?_eq_none.1 hlink l hl
  | some link =>
      have matched : FirstNamed Link.name live.name m.spec.links link := firstNamed_iff.2 hlink
      simp only []
      by_cases hbound : ∃ b, nic.bindings = [b]
      · obtain ⟨b, binding⟩ := hbound
        rw [nicType_of_bindings binding]
        by_cases hsourced : ∃ s, link.sources = [s]
        · obtain ⟨source, hsource⟩ := hsourced
          rw [source?_eq_some_iff.2 hsource]
          cases source with
          | pod => exact ⟨.ok _, rfl, .management first matched binding hsource⟩
          | attachment name =>
              simp only []
              have hrace := run_race_attachment (c := c) p w
                s!"resolve subnet of attachment {name}" name
              cases hsubnet : c.subnet (.byAttachment name) with
              | ok s =>
                  rw [hsubnet] at hrace
                  exact ⟨.ok _, Act.run_bind_of_ok hrace,
                    .attached first matched binding hsource (serves_iff.2 hsubnet)⟩
              | error f =>
                  rw [hsubnet] at hrace
                  have hlost := Sees.of_missing first matched binding hsource hsubnet
                  exact ⟨.error (f.within _), (Act.run_bind_of_ok (Act.run_lift _ w)).trans
                    (Act.run_bind_of_error hrace), hlost⟩
        · have source := not_exists.1 hsourced
          rw [source?_of_unsourced source]
          exact ⟨.error (Fault.Cause.unsourcedNetwork link.name), rfl,
            .unsourced first matched binding source⟩
      · have binding := not_exists.1 hbound
        rw [nicType_of_unbound binding]
        exact ⟨.error (Fault.Cause.unboundNic nic.name), rfl, .unbound first matched binding⟩

theorem SeesAll.cons {lives : List Instance.Nic} {view : Resource.Nic}
    {x : Except Fault.Kind (List Resource.Nic)} (hview : Sees c m live (.ok view))
    (h : SeesAll c m lives x) : SeesAll c m (live :: lives) (x.map (view :: ·)) := by
  cases x with
  | ok views => exact List.Forall₂.cons hview h
  | error k =>
      obtain ⟨before, broken, after, views, rfl, hbefore, hbroken⟩ := h
      exact ⟨live :: before, broken, after, view :: views, rfl, .cons hview hbefore, hbroken⟩

/-- The reported interfaces are seen one by one, by induction on their list: what the spec does not
know is passed over. -/
theorem seesAll_of_run (lives : List Instance.Nic) :
    ∃ x : Except Fault (List Resource.Nic), (projectNics (p.host c) m lives).run w = (x, w) ∧
      SeesAll c m (lives.filter m.spec.knows) (x.mapError Fault.kind) := by
  induction lives with
  | nil => exact ⟨.ok [], rfl, .nil⟩
  | cons live lives ih =>
      obtain ⟨x, hx, hall⟩ := ih
      -- what is made of the rest once this interface is done
      have hrest (view : Option Resource.Nic) :
          Act.run (projectNics (p.host c) m lives >>= fun views =>
            (pure (view.toList ++ views) : Act World _)) w = (x.map (view.toList ++ ·), w) := by
        cases x with
        | ok views => exact Act.run_bind_of_ok hx
        | error f => exact Act.run_bind_of_error hx
      rw [projectNics]
      cases hknows : m.spec.knows live with
      | false =>
          have hnic := run_projectNic_unknown (c := c) p w hknows
          refine ⟨x.map ([] ++ ·), (Act.run_bind_of_ok ?_).trans (hrest none), ?_⟩
          · rw [Act.run_within, hnic]
            rfl
          · rw [List.filter_cons_of_neg (by simp [hknows])]
            cases x with
            | ok views => exact hall
            | error f => exact hall
      | true =>
          obtain ⟨y, hy, hsees⟩ := sees_of_run (c := c) p w hknows
          rw [List.filter_cons_of_pos hknows]
          cases y with
          | ok view =>
              refine ⟨x.map ([view] ++ ·), (Act.run_bind_of_ok ?_).trans (hrest (some view)), ?_⟩
              · rw [Act.run_within, hy]
                rfl
              · have hcons := SeesAll.cons hsees hall
                cases x with
                | ok views => exact hcons
                | error f => exact hcons
          | error f =>
              have hnic (stage : String) : ((projectNic (p.host c) m live).within stage).run w =
                  (.error (f.within stage), w) := by
                rw [Act.run_within, hy]
                rfl
              exact ⟨.error (f.within _), Act.run_bind_of_error (hnic _), [], live, _, [], rfl, .nil,
                hsees⟩

end Running

section Agreement

variable {c : Catalogue} {m : Machine} {live : Instance.Nic} {k : Fault.Kind}
  {view : Resource.Nic} {lives : List Instance.Nic} {x : Except Fault.Kind (List Resource.Nic)}

theorem Sees.consistent (h : Sees c m live (.ok view)) : Consistent c m live := by
  cases h with
  | management first matched binding source =>
      exact ⟨⟨_, _, first, binding⟩, _, _, matched, source, nofun⟩
  | @attached _ _ _ attachment s first matched binding source subnet =>
      refine ⟨⟨_, _, first, binding⟩, _, _, matched, source, ?_⟩
      rintro _ ⟨⟩
      exact ⟨s, subnet⟩

theorem Consistent.not_sees_error (h : Consistent c m live) : ¬ Sees c m live (.error k) := by
  obtain ⟨⟨nic, b, hfirst, hbinding⟩, link, source, hmatched, hsource, hsubnet⟩ := h
  intro he
  cases he with
  | unmatched none =>
      obtain ⟨before, after, hlinks, hname, -⟩ := hmatched
      exact none link (by rw [hlinks]; exact List.mem_append_right _ List.mem_cons_self) hname
  | unbound first _ binding =>
      cases first.unique hfirst
      exact binding b hbinding
  | unsourced _ matched _ source' =>
      cases matched.unique hmatched
      exact source' source hsource
  | lost _ matched _ source' lost =>
      cases matched.unique hmatched
      rw [hsource] at source'
      cases source'
      obtain ⟨s, hs⟩ := hsubnet _ rfl
      exact lost s hs

theorem SeesAll.consistent {views : List Resource.Nic} (h : SeesAll c m lives (.ok views)) :
    ∀ live ∈ lives, Consistent c m live := by
  have hall : List.Forall₂ (fun live view => Sees c m live (.ok view)) lives views := h
  induction hall with
  | nil => nofun
  | cons hview hall ih => exact List.forall_mem_cons.2 ⟨hview.consistent, ih hall⟩

theorem SeesAll.not_consistent (h : SeesAll c m lives (.error k)) :
    ¬ ∀ live ∈ lives, Consistent c m live := by
  obtain ⟨before, live, after, views, rfl, -, hlive⟩ := h
  intro hall
  exact (hall live (List.mem_append_right _ List.mem_cons_self)).not_sees_error hlive

theorem labelled_iff {s : Spec} {key value : String} :
    s.Labelled key value ↔ s.label? key = some value := by
  rw [Spec.label?, Option.filter_eq_some_iff, decide_eq_true_eq]
  rfl

theorem identity_of_labelled {s : Spec} {flavour image : String}
    (hf : s.Labelled flavourLabel flavour) (hi : s.Labelled imageLabel image) :
    s.identity = .ok (flavour, image) := by
  unfold Spec.identity
  simp only [labelled_iff.1 hf, labelled_iff.1 hi]
  rfl

theorem identity_of_unidentified {s : Spec} (h : ¬ s.Identified) :
    ∃ f, s.identity = .error f ∧ f.kind = .internal := by
  unfold Spec.identity
  cases hf : s.label? flavourLabel with
  | none =>
      refine ⟨Fault.Cause.unlabelled s.name flavourLabel, ?_, rfl⟩
      simp only [hf]
      rfl
  | some flavour =>
      cases hi : s.label? imageLabel with
      | none =>
          refine ⟨Fault.Cause.unlabelled s.name imageLabel, ?_, rfl⟩
          simp only [hf, hi]
          rfl
      | some image => exact absurd ⟨⟨_, labelled_iff.2 hf⟩, _, labelled_iff.2 hi⟩ h

end Agreement

namespace Reconstructs

variable {c : Catalogue} {m : Machine} {i : Option Instance}

theorem of_view {r : Resource} (hid : m.spec.Identified)
    (hflavour : m.spec.Labelled flavourLabel r.flavour) (himage : m.spec.Labelled imageLabel r.image)
    (hall : SeesAll c m (m.known i) (.ok r.nics)) : Reconstructs c m i (.ok r) where
  succeeds := ⟨fun _ => ⟨hid, hall.consistent⟩, fun _ => ⟨r, rfl⟩⟩
  labels r' h := by
    cases h
    exact ⟨hflavour, himage⟩
  nics r' h := by
    cases h
    exact hall
  unidentified f h := by cases h
  broken f h := by cases h

theorem of_unidentified {f : Fault} (hid : ¬ m.spec.Identified) (hkind : f.kind = .internal) :
    Reconstructs c m i (.error f) where
  succeeds := by
    refine ⟨?_, fun h => absurd h.1 hid⟩
    rintro ⟨r, h⟩
    cases h
  labels r h := by cases h
  nics r h := by cases h
  unidentified f' h _ := by
    cases h
    exact hkind
  broken f' _ h := absurd h hid

theorem of_broken {f : Fault} (hid : m.spec.Identified)
    (hall : SeesAll c m (m.known i) (.error f.kind)) : Reconstructs c m i (.error f) where
  succeeds := by
    refine ⟨?_, fun h => absurd h.2 hall.not_consistent⟩
    rintro ⟨r, h⟩
    cases h
  labels r h := by cases h
  nics r h := by cases h
  unidentified f' _ h := absurd hid h
  broken f' h _ := by
    cases h
    exact hall

end Reconstructs

theorem project_reconstructs {World : Type} (p : Platform World) (w : World) (c : Catalogue)
    (m : Machine) (i : Option Instance) :
    ∃ x, (m.project (p.host c) i).run w = (x, w) ∧ Reconstructs c m i x := by
  by_cases hid : m.spec.Identified
  · obtain ⟨⟨flavour, hf⟩, image, hi⟩ := id hid
    obtain ⟨x, hx, hall⟩ := seesAll_of_run (c := c) (m := m) p w (i.elim [] (·.nics))
    have hidentity := identity_of_labelled hf hi
    cases x with
    | ok nics => exact ⟨.ok _, run_project hidentity hx, .of_view hid hf hi hall⟩
    | error f =>
        refine ⟨.error f, ?_, .of_broken hid hall⟩
        rw [project, hidentity]
        exact (Act.run_bind_of_ok (Act.run_lift _ w)).trans (Act.run_bind_of_error hx)
  · obtain ⟨f, hf, hkind⟩ := identity_of_unidentified hid
    refine ⟨.error f, ?_, .of_unidentified hid hkind⟩
    rw [project, hf]
    rfl

end Machine

end VirtualInfra
