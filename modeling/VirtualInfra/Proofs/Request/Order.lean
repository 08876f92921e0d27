import Mathlib.Data.List.Nodup
import VirtualInfra.Command
import VirtualInfra.Proofs.Arguments.Reading

namespace VirtualInfra

open Arguments

namespace Request

def interface? : String × String → Option Interface
  | ("subnet", id) => some (.onSubnet id)
  | ("network", id) => some (.onNetwork id)
  | _ => none

def Interface.ofOptions (os : List (Declared × String)) : List Interface :=
  os.filterMap fun o => interface? (o.1.name, o.2)

section Merging

variable {α : Type} {front back all : List (Nat × α)}

/-- Two lists that are merged by their positions make up the one list in which the positions grow. -/
theorem mergeSort_eq_of_perm (hp : (front ++ back).Perm all)
    (hall : all.Pairwise fun a b => a.1 < b.1) :
    ((front ++ back).mergeSort fun a b => a.1 ≤ b.1) = all := by
  have hsorted : ((front ++ back).mergeSort fun a b => a.1 ≤ b.1).Pairwise fun a b => a.1 ≤ b.1 := by
    have h := @List.pairwise_mergeSort _ (fun a b : Nat × α => decide (a.1 ≤ b.1))
      (fun a b c hab hbc => decide_eq_true ((of_decide_eq_true hab).trans (of_decide_eq_true hbc)))
      (fun a b => by simpa using Nat.le_total a.1 b.1) (front ++ back)
    exact h.imp of_decide_eq_true
  have hperm := (List.mergeSort_perm (front ++ back) fun a b => a.1 ≤ b.1).trans hp
  refine List.Perm.eq_of_pairwise ?_ hsorted (hall.imp Nat.le_of_lt) hperm
  intro a b ha hb hab hba
  -- a position stands in the whole list only once
  exact List.inj_on_of_nodup_map (hall.map Prod.fst fun _ _ h => h).nodup (hperm.subset ha) hb
    (Nat.le_antisymm hab hba)

end Merging

def placed? (o : (String × String) × Nat) : Option (Nat × Interface) :=
  (interface? o.1).map fun i => (o.2, i)

theorem placed_eq_map (g : Given) (name : String) (ask : String → Interface) :
    placed g name ask =
      (g.options.zipIdx.filter (·.1.1 = name)).map fun o => (o.2, ask o.1.2) := by
  have hvalues : g.values name = (g.options.zipIdx.filter (·.1.1 = name)).map (·.1.2) := by
    have hoptions : g.options = g.options.zipIdx.map Prod.fst := (List.zipIdx_map_fst 0 _).symm
    unfold Given.values
    rw [hoptions, List.filter_map, List.map_map, ← hoptions]
    rfl
  rw [placed, Given.positions, hvalues, List.map_map, List.zip_map']
  rfl

theorem interface?_eq_some_iff {o : String × String} {i : Interface} :
    interface? o = some i ↔
      o.1 = "subnet" ∧ .onSubnet o.2 = i ∨ o.1 = "network" ∧ .onNetwork o.2 = i := by
  obtain ⟨name, value⟩ := o
  unfold interface?
  split
  · next he =>
      cases he
      simp
  · next he =>
      cases he
      simp
  · next hs hn =>
      simp only [reduceCtorEq, false_iff, not_or, not_and]
      exact ⟨fun he => absurd (by rw [he]) (hs value), fun he => absurd (by rw [he]) (hn value)⟩

theorem placed_perm (g : Given) :
    (placed g "subnet" .onSubnet ++ placed g "network" .onNetwork).Perm
      (g.options.zipIdx.filterMap placed?) := by
  rw [placed_eq_map, placed_eq_map]
  induction g.options.zipIdx with
  | nil => rfl
  | cons o os ih =>
      obtain ⟨⟨name, value⟩, position⟩ := o
      by_cases hs : name = "subnet"
      · subst hs
        exact .cons _ ih
      · by_cases hn : name = "network"
        · subst hn
          exact List.perm_middle.trans (.cons _ ih)
        · have hnone : placed? ((name, value), position) = none := by
            rw [placed?, Option.map_eq_none_iff, Option.eq_none_iff_forall_ne_some]
            intro i hi
            rcases interface?_eq_some_iff.1 hi with ⟨h, -⟩ | ⟨h, -⟩
            · exact hs h
            · exact hn h
          simpa [hs, hn, hnone] using ih

theorem fst_of_placed? {o : (String × String) × Nat} {p : Nat × Interface}
    (h : placed? o = some p) : p.1 = o.2 := by
  obtain ⟨i, -, rfl⟩ := Option.map_eq_some_iff.1 h
  rfl

/-- Put in order by their positions, the interfaces stand as their options do. -/
theorem interfaces_asGiven (g : Given) :
    Arrangement.asGiven.interfaces g = g.options.filterMap interface? := by
  have hpositions : g.options.zipIdx.Pairwise fun o o' => o.2 < o'.2 := by
    have h : (g.options.zipIdx.map Prod.snd).Pairwise (· < ·) := by
      rw [List.zipIdx_map_snd]
      exact List.pairwise_lt_range'
    exact List.pairwise_map.1 h
  have hgrowing : (g.options.zipIdx.filterMap placed?).Pairwise fun a b => a.1 < b.1 := by
    rw [List.pairwise_filterMap]
    refine hpositions.imp fun hlt p hp q hq => ?_
    rw [fst_of_placed? hp, fst_of_placed? hq]
    exact hlt
  have hinterfaces : (g.options.zipIdx.filterMap placed?).map Prod.snd =
      (g.options.zipIdx.map Prod.fst).filterMap interface? := by
    rw [List.map_filterMap, List.filterMap_map]
    refine List.filterMap_congr fun o _ => ?_
    rw [placed?, Option.map_map]
    exact Option.map_id'
  rw [Arrangement.interfaces, mergeSort_eq_of_perm (placed_perm g) hgrowing, hinterfaces,
    List.zipIdx_map_fst]

section Options

variable {os : List (Declared × String)} {asked : Asked} {name : String}

theorem value?_ofOptions_isSome :
    ((Given.ofOptions os).value? name).isSome ↔ ∃ o ∈ os, o.1.name = name := by
  unfold Given.value? Given.ofOptions
  induction os with
  | nil => simp
  | cons o os ih =>
      rw [List.map_cons, List.lookup_cons]
      by_cases h : o.1.name = name
      · simp [h]
      · have hne : (name == o.1.name) = false := by simpa using Ne.symm h
        simpa [hne, h] using ih

theorem interfaces_ofOptions :
    Arrangement.asGiven.interfaces (Given.ofOptions os) = Interface.ofOptions os := by
  rw [interfaces_asGiven, Given.ofOptions, List.filterMap_map]
  rfl

def Asked.Lists (asked : Asked) (is : List Interface) : Prop :=
  (∃ l, asked = .inFile l ∧ is = []) ∨
    ∃ r : Request, (∀ d here, asked.read d here = .ok r) ∧ r.interfaces = is

structure SpellsOut (os : List (Declared × String)) : Prop where
  request : ∀ o ∈ os, o.1.name ≠ "request"
  flavour : ∃ o ∈ os, o.1.name = "flavour"
  image : ∃ o ∈ os, o.1.name = "image"

theorem SpellsOut.ofGiven (h : SpellsOut os) :
    ∃ r, Asked.ofGiven .asGiven (.ofOptions os) = .ok (.spelled r) ∧
      r.interfaces = Interface.ofOptions os := by
  obtain ⟨flavour, hflavour⟩ := Option.isSome_iff_exists.1 (value?_ofOptions_isSome.2 h.flavour)
  obtain ⟨image, himage⟩ := Option.isSome_iff_exists.1 (value?_ofOptions_isSome.2 h.image)
  have hrequest : (Given.ofOptions os).value? "request" = none := by
    rw [← Option.not_isSome_iff_eq_none, value?_ofOptions_isSome]
    rintro ⟨o, ho, he⟩
    exact h.request o ho he
  unfold Asked.ofGiven
  simp only [hrequest, hflavour, himage]
  exact ⟨_, rfl, interfaces_ofOptions⟩

end Options

end Request

open Request

inductive Command.Asks : String → Asked → Command → Prop
  | allocate (asked : Asked) : Asks "allocate" asked (.allocate asked)
  | render (asked : Asked) : Asks "render" asked (.render asked)

def Command.Line (line : List String) (settings : List (Declared × String)) (name : String)
    (os : List (Declared × String)) : Prop :=
  ∃ args, outer.Reads line settings (some (name, args)) ∧ (grammar name).Reads args os none

namespace Command

variable {line : List String} {settings settings' os os' : List (Declared × String)}
  {name : String} {asked : Asked} {command : Command} {g : Given}

theorem wordless_outer : outer.Wordless where
  words := rfl
  commands name hname c cs hcs := by
    have hhead : ∀ name ∈ outer.commands, name.toList.head? ≠ some '-' := by decide
    exact hhead name hname (congrArg List.head? hcs)

theorem wordless_grammar (hname : name ∈ ["allocate", "render"]) : (grammar name).Wordless where
  words := by
    have hwords : ∀ name ∈ ["allocate", "render"], (grammar name).words = 0 := by decide
    exact hwords name hname
  commands := nofun

theorem Line.unique (hname : name ∈ ["allocate", "render"]) (h : Line line settings name os)
    (h' : Line line settings' name os') : settings = settings' ∧ os = os' := by
  obtain ⟨args, houter, hinner⟩ := h
  obtain ⟨args', houter', hinner'⟩ := h'
  obtain ⟨rfl, hrest⟩ := houter.unique wordless_outer houter'
  cases hrest
  exact ⟨rfl, (hinner.unique (wordless_grammar hname) hinner').1⟩

end Command

namespace Invocation

variable {environment : Table String} {line args : List String} {inv : Invocation} {asked : Asked}
  {name : String} {settings os : List (Declared × String)}

section Mixed

end Mixed

end Invocation

end VirtualInfra
