import VirtualInfra.Proofs.Machine.Assembly
import VirtualInfra.Proofs.Text.Blank
import VirtualInfra.Proofs.Text.Split

namespace VirtualInfra

namespace Machine

def isLabelChar (c : Char) : Bool := c.isLower || c.isDigit || c = '-'

structure Bounded (cs : List Char) : Prop where
  first : ∃ c ∈ cs.head?, c.isAlphanum = true
  last : ∃ c ∈ cs.getLast?, c.isAlphanum = true

structure IsLabel (cs : List Char) : Prop where
  chars : ∀ c ∈ cs, isLabelChar c = true
  bounded : Bounded cs

def IsSubdomain (s : String) : Prop :=
  s.utf8ByteSize ≤ 253 ∧ ∃ labels, labels ≠ [] ∧ (∀ l ∈ labels, IsLabel l) ∧
    s.toList = ['.'].intercalate labels

/-- The characters of a subdomain, with a letter or a digit at either end of the whole. -/
structure Outlined (s : String) : Prop where
  size : s.utf8ByteSize ≤ 253
  chars : ∀ c ∈ s.toList, isLabelChar c = true ∨ c = '.'
  bounded : Bounded s.toList

def Framed (cs : List Char) : Prop :=
  ∀ before after, cs = before ++ '.' :: after →
    (∃ c ∈ before.getLast?, c.isAlphanum = true) ∧ ∃ c ∈ after.head?, c.isAlphanum = true

variable {cs l r : List Char} {s : String}

theorem IsLabel.dot_notMem (h : IsLabel l) : '.' ∉ l := fun hdot =>
  absurd (h.chars '.' hdot) (by decide)

theorem getLast?_dot_append (h : r ≠ []) : (l ++ '.' :: r).getLast? = r.getLast? := by
  rw [List.append_cons, List.getLast?_append_of_ne_nil _ h]

namespace Bounded

theorem ne_nil (h : Bounded cs) : cs ≠ [] := by
  rintro rfl
  obtain ⟨c, hc, -⟩ := h.first
  cases hc

theorem join (hl : Bounded l) (hr : Bounded r) : Bounded (l ++ '.' :: r) where
  first := by
    rw [List.head?_append_of_ne_nil _ hl.ne_nil]
    exact hl.first
  last := by
    rw [getLast?_dot_append hr.ne_nil]
    exact hr.last

end Bounded

namespace Framed

theorem of_dot_notMem (h : '.' ∉ cs) : Framed cs := by
  rintro before after rfl
  exact absurd (List.mem_append_right before List.mem_cons_self) h

theorem join (hdot : '.' ∉ l) (hl : Bounded l) (hr : Bounded r) (h : Framed r) :
    Framed (l ++ '.' :: r) := by
  intro before after he
  obtain ⟨between, rfl, hbetween⟩ := Text.exists_append_of_notMem hdot he
  cases between with
  | nil =>
      obtain ⟨-, rfl⟩ := List.cons.inj hbetween
      rw [List.append_nil]
      exact ⟨hl.last, hr.first⟩
  | cons b between =>
      obtain ⟨rfl, hr'⟩ := List.cons.inj hbetween
      obtain ⟨⟨c, hc, hlast⟩, hfirst⟩ := h between after hr'
      have hne : between ≠ [] := by
        rintro rfl
        cases hc
      rw [getLast?_dot_append hne]
      exact ⟨⟨c, hc, hlast⟩, hfirst⟩

theorem bounded_left (h : Framed (l ++ '.' :: r)) (hb : Bounded (l ++ '.' :: r)) : Bounded l := by
  obtain ⟨⟨c, hc, hlast⟩, -⟩ := h l r rfl
  have hne : l ≠ [] := by
    rintro rfl
    cases hc
  refine ⟨?_, c, hc, hlast⟩
  rw [← List.head?_append_of_ne_nil l hne]
  exact hb.first

theorem bounded_right (h : Framed (l ++ '.' :: r)) (hb : Bounded (l ++ '.' :: r)) : Bounded r := by
  obtain ⟨-, c, hc, hfirst⟩ := h l r rfl
  have hne : r ≠ [] := by
    rintro rfl
    cases hc
  refine ⟨⟨c, hc, hfirst⟩, ?_⟩
  rw [← getLast?_dot_append (l := l) hne]
  exact hb.last

theorem right (h : Framed (l ++ '.' :: r)) : Framed r := by
  rintro before after rfl
  obtain ⟨⟨c, hc, hlast⟩, hfirst⟩ := h (l ++ '.' :: before) after (by simp)
  refine ⟨⟨c, ?_, hlast⟩, hfirst⟩
  have hne : before ≠ [] := by
    -- otherwise the dot before it would be a letter or a digit
    rintro rfl
    rw [List.getLast?_append_cons] at hc
    cases hc
    exact absurd hlast (by decide)
  rwa [getLast?_dot_append hne] at hc

end Framed

section Labels

variable {labels : List (List Char)}

theorem bounded_intercalate (hne : labels ≠ []) (h : ∀ l ∈ labels, IsLabel l) :
    Bounded (['.'].intercalate labels) ∧ Framed (['.'].intercalate labels) ∧
      ∀ c ∈ ['.'].intercalate labels, isLabelChar c = true ∨ c = '.' := by
  induction labels with
  | nil => exact absurd rfl hne
  | cons l labels ih =>
      have hl := h l List.mem_cons_self
      cases labels with
      | nil =>
          rw [List.intercalate_singleton]
          exact ⟨hl.bounded, .of_dot_notMem hl.dot_notMem, fun c hc => .inl (hl.chars c hc)⟩
      | cons l' labels =>
          obtain ⟨hb, hf, hc⟩ := ih (List.cons_ne_nil _ _) fun l hl => h l (List.mem_cons_of_mem _ hl)
          rw [List.intercalate_cons_cons, List.append_assoc]
          refine ⟨hl.bounded.join hb, .join hl.dot_notMem hl.bounded hb hf, fun c hmem => ?_⟩
          rcases List.mem_append.1 hmem with hmem | hmem
          · exact .inl (hl.chars c hmem)
          · rcases List.mem_cons.1 hmem with rfl | hmem
            · exact .inr rfl
            · exact hc c hmem

/-- The labels are found from the front: the first one ends before the first dot. -/
theorem exists_labels (hb : Bounded cs) (hf : Framed cs)
    (hc : ∀ c ∈ cs, isLabelChar c = true ∨ c = '.') :
    ∃ labels, labels ≠ [] ∧ (∀ l ∈ labels, IsLabel l) ∧ cs = ['.'].intercalate labels := by
  induction hn : cs.length using Nat.strongRecOn generalizing cs with
  | ind n ih =>
      by_cases hdot : '.' ∈ cs
      · obtain ⟨l, r, rfl, hl⟩ := List.eq_append_cons_of_mem hdot
        have hlt : r.length < n := by
          rw [← hn, List.length_append, List.length_cons]
          omega
        obtain ⟨labels, hne, hlabels, rfl⟩ := ih _ hlt (hf.bounded_right hb) hf.right
          (fun c hmem => hc c (List.mem_append_right _ (List.mem_cons_of_mem _ hmem))) rfl
        have hlabel : IsLabel l := by
          refine ⟨fun c hmem => ?_, hf.bounded_left hb⟩
          refine (hc c (List.mem_append_left _ hmem)).resolve_right ?_
          rintro rfl
          exact hl hmem
        refine ⟨l :: labels, List.cons_ne_nil _ _, ?_, ?_⟩
        · exact List.forall_mem_cons.2 ⟨hlabel, hlabels⟩
        · obtain ⟨l', labels, rfl⟩ := List.exists_cons_of_ne_nil hne
          rw [List.intercalate_cons_cons, List.append_assoc]
          rfl
      · refine ⟨[cs], List.cons_ne_nil _ _, ?_, List.intercalate_singleton.symm⟩
        intro l hl
        rw [List.mem_singleton] at hl
        subst hl
        refine ⟨fun c hmem => (hc c hmem).resolve_right ?_, hb⟩
        rintro rfl
        exact hdot hmem

end Labels

theorem isSubdomain_iff : IsSubdomain s ↔ Outlined s ∧ Framed s.toList := by
  constructor
  · rintro ⟨hsize, labels, hne, hlabels, hs⟩
    obtain ⟨hb, hf, hc⟩ := bounded_intercalate hne hlabels
    rw [← hs] at hb hf hc
    exact ⟨⟨hsize, hc, hb⟩, hf⟩
  · rintro ⟨h, hf⟩
    exact ⟨h.size, exists_labels h.bounded hf h.chars⟩

theorem isObjectName_iff : isObjectName s = true ↔ Outlined s := by
  simp only [isObjectName, Bool.and_eq_true, decide_eq_true_eq, List.all_eq_true,
    Option.all_eq_true, Bool.or_eq_true]
  constructor
  · rintro ⟨⟨⟨⟨hne, hsize⟩, hfirst⟩, hlast⟩, hchars⟩
    have hhead := List.head?_eq_some_head hne
    have htail := List.getLast?_eq_some_getLast hne
    refine ⟨hsize, fun c hc => ?_, ⟨_, hhead, hfirst _ hhead⟩, _, htail, hlast _ htail⟩
    simpa [isLabelChar] using hchars c hc
  · intro h
    obtain ⟨a, ha, hfirst⟩ := h.bounded.first
    obtain ⟨b, hb, hlast⟩ := h.bounded.last
    refine ⟨⟨⟨⟨h.bounded.ne_nil, h.size⟩, fun c hc => ?_⟩, fun c hc => ?_⟩, fun c hc => ?_⟩
    · cases ha.symm.trans hc
      exact hfirst
    · cases hb.symm.trans hc
      exact hlast
    · simpa [isLabelChar] using h.chars c hc

theorem Outlined.not_blank (h : Outlined s) : Text.isBlankText s = false := by
  obtain ⟨c, hc, hfirst⟩ := h.bounded.first
  rw [← Bool.not_eq_true, Text.isBlankText, List.all_eq_true]
  intro hblank
  have hc := hblank c (List.mem_of_mem_head? hc)
  rw [Text.isBlank_of_isAlphanum hfirst] at hc
  cases hc

structure Prefers (f : Flavour) (d : Defaults) (p : Profile) : Prop where
  outlined : ∀ reference, p.preference = some reference ↔
    ∃ name, f.metadata.get? Metadata.Key.preference.name = some name ∧ Outlined name ∧
      reference = ⟨d.preferenceKind, name⟩
  subdomain : ∀ name, f.metadata.get? Metadata.Key.preference.name = some name ∧ IsSubdomain name ↔
    p.preference = some ⟨d.preferenceKind, name⟩ ∧ Framed name.toList

section Profile

variable {f : Flavour} {d : Defaults} {name instancetype : String}

theorem filter_preference_eq_some_iff :
    (f.metadata.value? .preference).filter isObjectName = some name ↔
      f.metadata.get? Metadata.Key.preference.name = some name ∧ Outlined name := by
  rw [Metadata.value?, Metadata.rawValue?, Option.filter_eq_some_iff, Option.filter_eq_some_iff,
    isObjectName_iff]
  constructor
  · rintro ⟨⟨hm, -⟩, h⟩
    exact ⟨hm, h⟩
  · rintro ⟨hm, h⟩
    exact ⟨⟨hm, by rw [h.not_blank]; rfl⟩, h⟩

theorem map_preference_eq_some_iff {reference : Reference} :
    ((f.metadata.value? .preference).filter isObjectName).map
      (fun name => (⟨d.preferenceKind, name⟩ : Reference)) = some reference ↔
        ∃ name, f.metadata.get? Metadata.Key.preference.name = some name ∧ Outlined name ∧
          reference = ⟨d.preferenceKind, name⟩ := by
  rw [Option.map_eq_some_iff]
  constructor
  · rintro ⟨name, hname, rfl⟩
    obtain ⟨hm, h⟩ := filter_preference_eq_some_iff.1 hname
    exact ⟨name, hm, h, rfl⟩
  · rintro ⟨name, hm, h, rfl⟩
    exact ⟨name, filter_preference_eq_some_iff.2 ⟨hm, h⟩, rfl⟩

/-- A flavour that can be used comes to the preference it names when the name is outlined as one of
an object, which is less than being a subdomain: nothing is asked of the ends of labels inside it. -/
theorem prefers_of_usable (hs : f.metadata.value? .source = some d.flavourSource)
    (hi : f.metadata.value? .instancetype = some instancetype) :
    ∃ p, f.profile d = .ok p ∧ Prefers f d p := by
  refine ⟨_, Flavour.profile_eq_ok_iff.2 ⟨hs, instancetype, hi, rfl⟩,
    fun _ => map_preference_eq_some_iff, fun name => ?_⟩
  rw [map_preference_eq_some_iff, isSubdomain_iff]
  constructor
  · rintro ⟨hm, h, hf⟩
    exact ⟨⟨name, hm, h, rfl⟩, hf⟩
  · rintro ⟨⟨_, hm, h, ⟨⟩⟩, hf⟩
    exact ⟨hm, h, hf⟩

end Profile

section Preferring

def preferring : Flavour where
  id := "small"
  processors := none
  memory := none
  metadata := .ofList [("kubevim.io/source", "kubevirt"),
    ("kubevim.io/instancetype-name", "u1.small"), ("kubevim.io/preference-name", "linux..server")]

theorem prefers_preferring :
    preferring.metadata.value? .source = some ({} : Defaults).flavourSource ∧
      preferring.metadata.value? .instancetype = some "u1.small" ∧
      ∃ p, preferring.profile {} = .ok p ∧ Prefers preferring {} p := by
  have hs : preferring.metadata.value? .source = some ({} : Defaults).flavourSource := by
    decide +kernel
  have hi : preferring.metadata.value? .instancetype = some "u1.small" := by decide +kernel
  exact ⟨hs, hi, prefers_of_usable hs hi⟩

/-- The preference reaches the platform although its name is no subdomain. -/
theorem not_isSubdomain_of_preference : ¬ ∀ (f : Flavour) (d : Defaults) (p : Profile)
    (name : String), f.profile d = .ok p → p.preference = some ⟨d.preferenceKind, name⟩ →
      IsSubdomain name := by
  intro hall
  have hprofile : (preferring.profile {}).map (·.preference) =
      .ok (some ⟨({} : Defaults).preferenceKind, "linux..server"⟩) := by
    decide +kernel
  obtain ⟨p, hp, hpreference⟩ := Except.map_eq_ok_iff.1 hprofile
  obtain ⟨-, hf⟩ := isSubdomain_iff.1 (hall _ _ p _ hp hpreference)
  obtain ⟨-, c, hc, hfirst⟩ := hf "linux".toList ".server".toList (by decide)
  cases hc
  exact absurd hfirst (by decide)

end Preferring

end Machine

end VirtualInfra
