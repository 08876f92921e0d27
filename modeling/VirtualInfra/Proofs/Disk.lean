import Mathlib.Algebra.Order.BigOperators.Group.List
import Mathlib.Algebra.Order.Ring.Nat
import VirtualInfra.Disk.Way
import VirtualInfra.Proofs.Except

namespace VirtualInfra

open Disk

namespace Way

structure IsName (name : String) : Prop where
  ne_empty : name ≠ ""
  ne_here : name ≠ "."
  ne_back : name ≠ ".."
  short : name.utf8ByteSize ≤ maxNameSize

variable {w : Way} {name : String}

theorem foldl_add_size (n : Nat) (segments : List String) :
    segments.foldl (fun n segment => n + segment.utf8ByteSize) n =
      n + (segments.map String.utf8ByteSize).sum := by
  induction segments generalizing n with
  | nil => rfl
  | cons segment segments ih =>
      rw [List.foldl_cons, ih, List.map_cons, List.sum_cons, Nat.add_assoc]

theorem size_eq (w : Way) :
    w.size = w.segments.length - 1 + (w.segments.map String.utf8ByteSize).sum :=
  foldl_add_size _ _

def before (w : Way) : List String :=
  if w.segments.getLast? = some "" then w.segments.dropLast else w.segments

theorem segments_child (w : Way) (name : String) : (w.child name).segments = w.before ++ [name] :=
  rfl

theorem size_child (w : Way) (name : String) : (w.child name).size =
    w.before.length + (w.before.map String.utf8ByteSize).sum + name.utf8ByteSize := by
  rw [size_eq, segments_child, List.length_append, List.length_singleton, Nat.add_sub_cancel,
    List.map_append, List.sum_append, List.map_singleton, List.sum_singleton, Nat.add_assoc]

theorem size_child_le {shorter : String} (h : shorter.utf8ByteSize ≤ name.utf8ByteSize) :
    (w.child shorter).size ≤ (w.child name).size := by
  rw [size_child, size_child]
  omega

theorem names_child (h : IsName name) : (w.child name).names = w.names ++ [name] := by
  have hname : [name].filter (fun name => name ≠ "" ∧ name ≠ ".") = [name] := by
    simp [h.ne_empty, h.ne_here]
  have hbefore : w.before.filter (fun name => name ≠ "" ∧ name ≠ ".") = w.names := by
    unfold before names
    split
    · next hl =>
        obtain ⟨front, hfront⟩ := List.getLast?_eq_some_iff.1 hl
        rw [hfront, List.dropLast_concat, List.filter_append]
        simp
    · rfl
  rw [names, segments_child, List.filter_append, hname, hbefore]

theorem meansDirectory_child (h : IsName name) : (w.child name).meansDirectory = false := by
  rw [meansDirectory]
  rw [segments_child, List.getLast?_concat]
  simp [h.ne_empty, h.ne_here, h.ne_back]

theorem size_child_pos (h : IsName name) : (w.child name).size ≠ 0 := by
  have hpos : name.utf8ByteSize ≠ 0 := fun h0 => h.ne_empty (String.utf8ByteSize_eq_zero_iff.1 h0)
  rw [size_child]
  omega

def bare (w : Way) : Way := ⟨w.start, w.names⟩

theorem names_bare (w : Way) : w.bare.names = w.names := List.filter_filter.trans (by simp [names])

theorem size_bare_le (w : Way) : w.bare.size ≤ w.size := by
  have hsub : w.names.Sublist w.segments := List.filter_sublist
  have hsum := (hsub.map String.utf8ByteSize).sum_le_sum fun _ _ => Nat.zero_le _
  have hlen := hsub.length_le
  rw [size_eq, size_eq]
  change w.names.length - 1 + (w.names.map String.utf8ByteSize).sum ≤ _
  omega

end Way

namespace Disk

open Way

variable {d d' : Disk} {w : Way} {p : Path} {name : String}

/-- The names on a way lead from one directory to the next, and in the end to a path. -/
def Leads (d : Disk) (w : Way) (p : Path) : Prop :=
  w.names.foldlM d.step w.start = .ok p

def Spares (d d' : Disk) : Prop :=
  ∀ p, d.get? p = some .directory → d'.get? p = some .directory

theorem enter_eq_ok_iff : d.enter p = .ok () ↔ d.get? p = some .directory := by
  rw [enter]
  split <;> simp_all

theorem step_eq_ok_iff {q : Path} : d.step p name = .ok q ↔
    d.get? p = some .directory ∧ name.utf8ByteSize ≤ maxNameSize ∧ q = advance p name := by
  rw [step]
  constructor
  · intro h
    obtain ⟨⟨⟩, he, h⟩ := Except.bind_eq_ok_iff.1 h
    refine ⟨enter_eq_ok_iff.1 he, ?_⟩
    split at h
    · cases h
    · next hn =>
        cases h
        exact ⟨Nat.not_lt.1 hn, rfl⟩
  · rintro ⟨he, hn, rfl⟩
    refine Except.bind_eq_ok_iff.2 ⟨(), enter_eq_ok_iff.2 he, ?_⟩
    rw [if_neg (Nat.not_lt.2 hn)]
    rfl

theorem foldlM_step_of_spares (h : d.Spares d') {names : List String} {q : Path}
    (hp : names.foldlM d.step p = .ok q) : names.foldlM d'.step p = .ok q := by
  induction names generalizing p with
  | nil => exact hp
  | cons name names ih =>
      rw [List.foldlM_cons] at hp ⊢
      obtain ⟨r, hr, hp⟩ := Except.bind_eq_ok_iff.1 hp
      obtain ⟨hd, hn, rfl⟩ := step_eq_ok_iff.1 hr
      exact Except.bind_eq_ok_iff.2 ⟨_, step_eq_ok_iff.2 ⟨h p hd, hn, rfl⟩, ih hp⟩

theorem Leads.spared (hp : d.Leads w p) (h : d.Spares d') : d'.Leads w p :=
  foldlM_step_of_spares h hp

theorem Leads.child (hp : d.Leads w p) (hd : d.get? p = some .directory) (hn : IsName name) :
    d.Leads (w.child name) (p ++ [name]) := by
  rw [Leads]
  rw [names_child hn, List.foldlM_append]
  refine Except.bind_eq_ok_iff.2 ⟨p, hp, ?_⟩
  rw [List.foldlM_cons]
  refine Except.bind_eq_ok_iff.2 ⟨_, step_eq_ok_iff.2 ⟨hd, hn.short, rfl⟩, ?_⟩
  rw [List.foldlM_nil, advance, if_neg hn.ne_back]
  rfl

/-- The end of a way is reached that does not have to be a directory. -/
theorem Leads.reach (hp : d.Leads w p) (hpos : w.size ≠ 0) (hs : w.size ≤ maxWaySize)
    (hd : w.meansDirectory = false) : d.reach w = .ok p := by
  rw [Disk.reach]
  rw [if_neg hpos, if_neg (Nat.not_lt.2 hs)]
  refine Except.bind_eq_ok_iff.2 ⟨p, hp, ?_⟩
  rw [hd]
  rfl

theorem Leads.reach_child (hp : d.Leads w p) (hd : d.get? p = some .directory)
    (hn : IsName name) (hs : (w.child name).size ≤ maxWaySize) :
    d.reach (w.child name) = .ok (p ++ [name]) :=
  (hp.child hd hn).reach (size_child_pos hn) hs (meansDirectory_child hn)

theorem Leads.reach_child_of_missing (hp : d.Leads w p) (hmissing : d.get? p = none)
    (hn : IsName name) (hs : (w.child name).size ≤ maxWaySize) :
    d.reach (w.child name) = .error .notFound := by
  have hfold : (w.child name).names.foldlM d.step (w.child name).start = .error .notFound := by
    rw [names_child hn, List.foldlM_append]
    change (w.names.foldlM d.step w.start >>= fun q => [name].foldlM d.step q) = _
    rw [hp]
    change (d.step p name >>= fun q => pure q) = _
    unfold step enter
    rw [hmissing]
    rfl
  rw [Disk.reach]
  rw [if_neg (size_child_pos hn), if_neg (Nat.not_lt.2 hs)]
  simp only [hfold]
  rfl

theorem Leads.reach_bare (hp : d.Leads w p) (hd : d.get? p = some .directory)
    (hn : IsName name) (hs : (w.child name).size ≤ maxWaySize) :
    d.reach (w.child name).bare = .ok (p ++ [name]) := by
  have hleads : d.Leads (w.child name).bare (p ++ [name]) := by
    rw [Leads]
    rw [names_bare]
    exact hp.child hd hn
  have hsegments : (w.child name).bare.segments = w.names ++ [name] := names_child hn
  have hlast : (w.child name).bare.segments.getLast? = some name := by
    rw [hsegments, List.getLast?_concat]
  have hpos : name.utf8ByteSize ≠ 0 := fun h0 => hn.ne_empty (String.utf8ByteSize_eq_zero_iff.1 h0)
  refine hleads.reach ?_ (Nat.le_trans (size_bare_le _) hs) ?_
  · rw [size_eq, hsegments, List.map_append, List.sum_append, List.map_singleton,
      List.sum_singleton]
    omega
  · rw [meansDirectory]
    rw [hlast]
    simp [hn.ne_empty, hn.ne_here, hn.ne_back]

theorem makeDirectories_child (hp : d.Leads w p) (hd : d.get? p = some .directory)
    (hn : IsName name) (hs : (w.child name).size ≤ maxWaySize)
    (habsent : d.get? (p ++ [name]) = none) :
    d.makeDirectories (w.child name) = (.ok (), d.put (p ++ [name]) .directory) := by
  have hreach := hp.reach_bare hd hn hs
  have hfind : d.find (w.child name).bare = .ok none := by
    rw [Disk.find]
    rw [hreach]
    exact congrArg Except.ok habsent
  have hcreate : d.create (w.child name).bare .directory =
      .ok (d.put (p ++ [name]) .directory) := by
    rw [create]
    rw [hreach, Except.ok_bind, habsent]
    rfl
  have hensure : d.ensureDirectory (w.child name).bare =
      (.ok (), d.put (p ++ [name]) .directory) := by
    unfold ensureDirectory hasDirectory
    rw [hfind, hcreate]
    rfl
  have hnames : (w.child name).names.reverse = name :: w.names.reverse := by
    rw [names_child hn, List.reverse_append, List.reverse_singleton, List.singleton_append]
  have hbare : (⟨(w.child name).start, (name :: w.names.reverse).reverse⟩ : Way) =
      (w.child name).bare := by
    rw [bare, names_child hn, List.reverse_cons, List.reverse_reverse]
  rw [makeDirectories]
  rw [if_neg (Nat.not_lt.2 hs), hnames, ensureDirectories]
  simp only [hbare, hensure]

theorem spares_put_file {bytes : List UInt8} (h : d.get? p ≠ some .directory) :
    d.Spares (d.put p (.file bytes)) := by
  intro q hq
  by_cases hq0 : q = []
  · rw [hq0]
    rfl
  · have hne : q ≠ p := by
      rintro rfl
      exact h hq
    rw [get?_put hq0, if_neg hne, hq]

theorem spares_put_directory : d.Spares (d.put p .directory) := by
  intro q hq
  by_cases hq0 : q = []
  · rw [hq0]
    rfl
  · rw [get?_put hq0, hq]
    split <;> rfl

theorem spares_drop (h : d.get? p ≠ some .directory) : d.Spares (d.drop p) := by
  intro q hq
  by_cases hq0 : q = []
  · rw [hq0]
    rfl
  · have hne : q ≠ p := by
      rintro rfl
      exact h hq
    rw [get?_drop hq0, if_neg hne, hq]

end Disk

end VirtualInfra
