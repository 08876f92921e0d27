import VirtualInfra.Defaults
import VirtualInfra.Proofs.Text.Numeral
import VirtualInfra.Proofs.Text.Split

namespace VirtualInfra.Defaults

inductive Placeholder where
  | machine
  | image
  | imageId

namespace Placeholder

variable {p q : Placeholder} {v : Values}

def name : Placeholder → List Char
  | .machine => ['v', 'm']
  | .image => ['i', 'm', 'a', 'g', 'e']
  | .imageId => ['i', 'm', 'a', 'g', 'e', '_', 'i', 'd']

def text (p : Placeholder) : List Char := '{' :: (p.name ++ ['}'])

def value (v : Values) : Placeholder → String
  | .machine => v.machine
  | .image => v.image
  | .imageId => v.imageId

theorem get?_eq_some_iff {cs : List Char} {s : String} :
    v.get? cs = some s ↔ ∃ p : Placeholder, p.name = cs ∧ p.value v = s := by
  constructor
  · intro h
    unfold Values.get? at h
    split at h
    · exact ⟨.machine, rfl, Option.some.inj h⟩
    · exact ⟨.image, rfl, Option.some.inj h⟩
    · exact ⟨.imageId, rfl, Option.some.inj h⟩
    · cases h
  · rintro ⟨p, rfl, rfl⟩
    cases p <;> rfl

theorem open_notMem_name (p : Placeholder) : '{' ∉ p.name ++ ['}'] := by
  cases p <;> decide

theorem close_notMem_name (p : Placeholder) : '}' ∉ p.name := by
  cases p <;> decide

theorem text_append_inj {cs ds : List Char} (h : p.text ++ cs = q.text ++ ds) : p = q ∧ cs = ds := by
  cases p <;> cases q <;> simp_all [text, name]

end Placeholder

inductive Piece where
  | kept (c : Char)
  | filled (p : Placeholder)

namespace Piece

def source : Piece → List Char
  | .kept c => [c]
  | .filled p => p.text

def result (v : Values) : Piece → List Char
  | .kept c => [c]
  | .filled p => (p.value v).toList

theorem source_ne_nil (x : Piece) : x.source ≠ [] := by
  cases x <;> exact List.cons_ne_nil _ _

end Piece

/-- Wherever a placeholder occurs in the text of the pieces, it is one of them. -/
def Thorough (pieces : List Piece) : Prop :=
  ∀ before p after, pieces.flatMap Piece.source = before ++ p.text ++ after →
    ∃ ps qs, pieces = ps ++ .filled p :: qs ∧
      ps.flatMap Piece.source = before ∧ qs.flatMap Piece.source = after

/-- The name is the pattern with every placeholder replaced by its value, and values are not looked
at again. -/
def Fills (v : Values) (pattern name : String) : Prop :=
  ∃ pieces, Thorough pieces ∧ pieces.flatMap Piece.source = pattern.toList ∧
    pieces.flatMap (Piece.result v) = name.toList

variable {v : Values} {c : Char} {cs : List Char} {x : Piece} {ps : List Piece}

section Expand

theorem expand_text_append (v : Values) (p : Placeholder) (cs : List Char) :
    expand v (p.text ++ cs) = (p.value v).toList ++ expand v cs := by
  have htext : p.text ++ cs = '{' :: (p.name ++ '}' :: cs) := by simp [Placeholder.text]
  have hclose : '}' ∈ p.name ++ '}' :: cs := List.mem_append_right _ List.mem_cons_self
  rw [htext, expand, if_pos ⟨rfl, hclose⟩, Text.takeWhile_ne_append p.close_notMem_name,
    Placeholder.get?_eq_some_iff.2 ⟨p, rfl, rfl⟩]
  simp

theorem expand_cons_of_not_isPrefix (h : ∀ p : Placeholder, ¬ p.text <+: c :: cs) :
    expand v (c :: cs) = c :: expand v cs := by
  rw [expand]
  split
  · next hbraces =>
      obtain ⟨rfl, hclose⟩ := hbraces
      obtain ⟨front, rest, rfl, hfront⟩ := List.eq_append_cons_of_mem hclose
      rw [Text.takeWhile_ne_append hfront]
      split
      · next s hs =>
          -- a value under this name would mean that its placeholder begins here
          obtain ⟨p, rfl, -⟩ := Placeholder.get?_eq_some_iff.1 hs
          exact absurd ⟨rest, by simp [Placeholder.text]⟩ (h p)
      · rfl
  · rfl

end Expand

namespace Thorough

theorem nil : Thorough [] := by
  intro before p after h
  simp [Placeholder.text] at h

theorem tail (h : Thorough (x :: ps)) : Thorough ps := by
  intro before p after he
  obtain ⟨ps', qs, hps, hbefore, hafter⟩ :=
    h (x.source ++ before) p after (by simp [List.flatMap_cons, he])
  cases ps' with
  | nil => exact absurd (List.append_eq_nil_iff.1 hbefore.symm).1 x.source_ne_nil
  | cons y ps' =>
      obtain ⟨rfl, rfl⟩ := List.cons.inj hps
      exact ⟨ps', qs, rfl, List.append_cancel_left hbefore, hafter⟩

theorem not_isPrefix (h : Thorough (.kept c :: ps)) (p : Placeholder) :
    ¬ p.text <+: c :: ps.flatMap Piece.source := by
  rintro ⟨after, he⟩
  obtain ⟨ps', qs, hps, hbefore, -⟩ := h [] p after he.symm
  cases ps' with
  | nil => cases hps
  | cons y ps' => exact y.source_ne_nil (List.append_eq_nil_iff.1 hbefore).1

theorem cons_kept (hc : ∀ p : Placeholder, ¬ p.text <+: c :: ps.flatMap Piece.source)
    (h : Thorough ps) : Thorough (.kept c :: ps) := by
  intro before p after he
  cases before with
  | nil => exact absurd ⟨after, he.symm⟩ (hc p)
  | cons b before =>
      obtain ⟨rfl, htail⟩ := List.cons.inj he
      obtain ⟨ps', qs, rfl, rfl, rfl⟩ := h before p after htail
      exact ⟨.kept c :: ps', qs, rfl, rfl, rfl⟩

/-- Placeholders do not overlap, since a brace opens each of them and there is no other in it. -/
theorem cons_filled (q : Placeholder) (h : Thorough ps) : Thorough (.filled q :: ps) := by
  intro before p after he
  cases before with
  | nil =>
      obtain ⟨rfl, rfl⟩ := Placeholder.text_append_inj he
      exact ⟨[], ps, rfl, rfl, rfl⟩
  | cons b before =>
      obtain ⟨rfl, htail⟩ := List.cons.inj he
      obtain ⟨between, rfl, hps⟩ := Text.exists_append_of_notMem q.open_notMem_name
        (htail.trans (List.append_assoc _ _ _))
      obtain ⟨ps', qs, rfl, rfl, rfl⟩ :=
        h between p after (hps.trans (List.append_assoc between p.text after).symm)
      exact ⟨.filled q :: ps', qs, rfl, rfl, rfl⟩

theorem expand_eq (h : Thorough ps) :
    expand v (ps.flatMap Piece.source) = ps.flatMap (Piece.result v) := by
  induction ps with
  | nil => rw [List.flatMap_nil, expand]; rfl
  | cons x ps ih =>
      rw [List.flatMap_cons, List.flatMap_cons, ← ih h.tail]
      cases x with
      | kept c => exact expand_cons_of_not_isPrefix h.not_isPrefix
      | filled p => exact expand_text_append v p _

end Thorough

theorem exists_thorough (cs : List Char) :
    ∃ ps, Thorough ps ∧ ps.flatMap Piece.source = cs := by
  induction hn : cs.length using Nat.strongRecOn generalizing cs with
  | ind n ih =>
      cases cs with
      | nil => exact ⟨[], .nil, rfl⟩
      | cons c cs =>
          by_cases h : ∃ p : Placeholder, p.text <+: c :: cs
          · obtain ⟨p, rest, hrest⟩ := h
            have hlt : rest.length < n := by
              rw [← hn, ← hrest, List.length_append, Placeholder.text]
              simp
            obtain ⟨ps, hps, rfl⟩ := ih _ hlt rest rfl
            exact ⟨.filled p :: ps, hps.cons_filled p, hrest⟩
          · obtain ⟨ps, hps, rfl⟩ := ih _ (by simp [← hn]) cs rfl
            exact ⟨.kept c :: ps, hps.cons_kept (not_exists.1 h), rfl⟩

theorem volumeName_eq_iff_fills {d : Defaults} {name : String} :
    d.volumeName v = name ↔ Fills v d.volumePattern name := by
  constructor
  · rintro rfl
    obtain ⟨ps, hps, hsource⟩ := exists_thorough d.volumePattern.toList
    refine ⟨ps, hps, hsource, ?_⟩
    rw [← hps.expand_eq, hsource, volumeName, String.toList_ofList]
  · rintro ⟨ps, hps, hsource, hresult⟩
    apply String.toList_inj.1
    rw [volumeName, String.toList_ofList, ← hsource, hps.expand_eq, hresult]

example : volumeName { volumePattern := "\x7b\x7bvm\x7d-\x7bzone\x7d\x7d-\x7bimage" }
    ⟨"\x7bimage\x7d", "disk", "i1"⟩ = "\x7b\x7bimage\x7d-\x7bzone\x7d\x7d-\x7bimage" := by
  cbv

end VirtualInfra.Defaults
