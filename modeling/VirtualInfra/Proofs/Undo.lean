import Mathlib.Data.List.Perm.Basic
import VirtualInfra.Proofs.Act
import VirtualInfra.Proofs.Text.Split
import VirtualInfra.Undo.Log

namespace VirtualInfra.Undo

open Text

variable {World : Type}

namespace Report

def noting (step : String) (x : Except Fault Unit) (r : Report) : Report :=
  match x with
  | .ok () => { r with undone := step :: r.undone }
  | .error f => { r with left := ⟨step, f.text⟩ :: r.left }

def single (stage : String) : Except Fault Unit → Report
  | .ok () => ⟨[stage], []⟩
  | .error f => ⟨[], [⟨stage, f.text⟩]⟩

theorem noting_empty (stage : String) (x : Except Fault Unit) :
    noting stage x ⟨[], []⟩ = single stage x := by
  rcases x with f | ⟨⟩ <;> rfl

theorem isClean_single {stage : String} {x : Except Fault Unit} :
    (single stage x).isClean = true ↔ x = .ok () := by
  rcases x with f | ⟨⟩
  · constructor <;> intro h <;> cases h
  · exact ⟨fun _ => rfl, fun _ => rfl⟩

/-- Undone because it was cancelled, an operation counts as cancelled if nothing is left behind. -/
theorem kind_cancelled (report : Report) (stage : String) :
    (report.cancelled stage).kind = if report.isClean then .cancelled else .internal := by
  rw [cancelled]
  split <;> rfl

theorem kind_eq_cancelled_iff (report : Report) (stage : String) :
    (report.cancelled stage).kind = .cancelled ↔ report.isClean = true := by
  rw [kind_cancelled]
  cases report.isClean <;> decide

theorem kind_of_ne_cancelled (report : Report) (stage : String)
    (h : (report.cancelled stage).kind ≠ .cancelled) :
    (report.cancelled stage).kind = .internal := by
  rw [kind_cancelled] at h ⊢
  cases hclean : report.isClean with
  | true => exact absurd (if_pos hclean) h
  | false => rfl

theorem message_fault (report : Report) (cause : Fault) :
    (report.fault cause).cause.message = s!"{cause.text}; {report.text}" := rfl

theorem exists_message_cancelled (report : Report) (stage : String) :
    ∃ front : String, (report.cancelled stage).cause.message = s!"{front}; {report.text}" := by
  rw [cancelled]
  split
  · exact ⟨stage, rfl⟩
  · exact ⟨_, report.message_fault _⟩

theorem toList_text_fault (report : Report) (cause : Fault) : (report.fault cause).text.toList =
    "Internal error: ".toList ++ cause.text.toList ++ "; ".toList ++ report.text.toList := by
  change ("Internal error" ++ ": " ++ (cause.text ++ "; " ++ report.text)).toList = _
  simp only [String.toList_append, List.append_assoc]
  rfl

theorem cause_infix_text_fault (report : Report) (cause : Fault) :
    cause.text.toList <:+: (report.fault cause).text.toList := by
  rw [toList_text_fault, List.append_assoc _ "; ".toList]
  exact List.infix_append _ _ _

theorem step_infix_text {report : Report} {l : Leftover} (h : l ∈ report.left) :
    l.step.toList <:+: report.text.toList := by
  have hdirty : report.isClean = false := by
    rw [isClean, List.isEmpty_eq_false_iff]
    exact List.ne_nil_of_mem h
  have hpiece : s!"{l.step} ({l.error})".toList ∈
      (report.left.map fun l => s!"{l.step} ({l.error})").map String.toList :=
    List.mem_map_of_mem (List.mem_map_of_mem h)
  have hstep : l.step.toList <:+: s!"{l.step} ({l.error})".toList := by
    simp only [String.toList_append, List.append_assoc]
    exact (List.prefix_append _ _).isInfix
  rw [text, hdirty]
  simp only [Bool.false_eq_true, if_false, String.toList_append, String.toList_intercalate]
  exact hstep.trans ((infix_intercalate hpiece _).trans (List.suffix_append _ _).isInfix)

theorem step_infix_text_fault {report : Report} {l : Leftover} (h : l ∈ report.left)
    (cause : Fault) : l.step.toList <:+: (report.fault cause).text.toList := by
  rw [toList_text_fault]
  exact (step_infix_text h).trans (List.suffix_append _ _).isInfix

end Report

theorem unwindSteps_cons (step : Step World) (steps : List (Step World)) (w : World) :
    Log.unwindSteps (step :: steps) w =
      ((Log.unwindSteps steps (step.undo w).2).1.noting step.name (step.undo w).1,
        (Log.unwindSteps steps (step.undo w).2).2) := by
  rw [Log.unwindSteps]
  rcases step.undo w with ⟨f | ⟨⟩, w'⟩ <;> rfl

theorem Log.unwind_record (l : Log World) (stage : String)
    (undo : World → Except Fault Unit × World) (w : World) :
    (l.record stage undo).unwind w =
      ((l.unwind (undo w).2).1.noting stage (undo w).1, (l.unwind (undo w).2).2) := by
  rw [unwind, record, List.reverse_append]
  exact unwindSteps_cons ⟨stage, undo⟩ l.steps.reverse w

theorem Log.unwind_record_empty (stage : String) (undo : World → Except Fault Unit × World)
    (w : World) :
    (Log.empty.record stage undo).unwind w = (.single stage (undo w).1, (undo w).2) := by
  rw [unwind_record, ← Report.noting_empty]
  rfl

structure Attempt where
  position : Nat
  step : String
  answer : Except Fault Unit

namespace Attempt

def succeeded (a : Attempt) : Bool := a.answer.isOk

def leftover? (a : Attempt) : Option Leftover :=
  match a.answer with
  | .ok () => none
  | .error f => some ⟨a.step, f.text⟩

variable (as : List Attempt)

def report : Report :=
  ⟨(as.filter (·.succeeded)).map (·.step), as.filterMap (·.leftover?)⟩

theorem report_cons (a : Attempt) :
    report (a :: as) = (report as).noting a.step a.answer := by
  obtain ⟨position, step, f | ⟨⟩⟩ := a <;> rfl

theorem steps_report_perm :
    ((report as).undone ++ (report as).left.map (·.step)).Perm (as.map (·.step)) := by
  induction as with
  | nil => exact .nil
  | cons a as ih =>
      obtain ⟨position, step, f | ⟨⟩⟩ := a
      · exact List.perm_middle.trans (ih.cons step)
      · exact ih.cons step

theorem isClean_report : (report as).isClean = true ↔ ∀ a ∈ as, a.answer = .ok () := by
  induction as with
  | nil => exact ⟨fun _ => nofun, fun _ => rfl⟩
  | cons a as ih =>
      obtain ⟨position, step, f | ⟨⟩⟩ := a
      · exact ⟨nofun, fun h => nomatch h _ List.mem_cons_self⟩
      · rw [List.forall_mem_cons]
        exact ih.trans ⟨fun h => ⟨rfl, h⟩, And.right⟩

end Attempt

structure Traced (World : Type) where
  world : World
  attempts : List Attempt := []

def Step.traced (position : Nat) (s : Step World) : Step (Traced World) where
  name := s.name
  undo t := ((s.undo t.world).1, {
    world := (s.undo t.world).2
    attempts := t.attempts ++ [⟨position, s.name, (s.undo t.world).1⟩] })

def Log.traced (l : Log World) : Log (Traced World) :=
  ⟨l.steps.zipIdx.map fun s => s.1.traced s.2⟩

/-- Each of the steps is tried in turn, and the report is on these attempts. -/
theorem unwindSteps_traced (steps : List (Step World × Nat)) (t : Traced World) :
    ∃ as : List Attempt, ∃ w : World,
      Log.unwindSteps (steps.map fun s => s.1.traced s.2) t =
        (Attempt.report as, { world := w, attempts := t.attempts ++ as }) ∧
      Log.unwindSteps (steps.map (·.1)) t.world = (Attempt.report as, w) ∧
      as.map (fun a => (a.step, a.position)) = steps.map fun s => (s.1.name, s.2) := by
  induction steps generalizing t with
  | nil => exact ⟨[], t.world, by rw [List.append_nil]; rfl, rfl, rfl⟩
  | cons s steps ih =>
      obtain ⟨as, w, htraced, hplain, hsteps⟩ := ih ((s.1.traced s.2).undo t).2
      refine ⟨⟨s.2, s.1.name, (s.1.undo t.world).1⟩ :: as, w, ?_, ?_, ?_⟩
      · rw [List.map_cons, unwindSteps_cons, htraced, Attempt.report_cons]
        simp only [Step.traced, List.append_assoc, List.singleton_append]
      · rw [List.map_cons, unwindSteps_cons, Attempt.report_cons]
        change ((Log.unwindSteps (steps.map (·.1)) (s.1.undo t.world).2).1.noting _ _, _) = _
        change Log.unwindSteps (steps.map (·.1)) (s.1.undo t.world).2 = _ at hplain
        rw [hplain]
      · rw [List.map_cons, hsteps, List.map_cons]

/-- How the steps of a log are undone, and what is reported of it. -/
structure Log.Unwinds (l : Log World) (w : World) (report : Report) (t : Traced World) : Prop where
  untraced : l.unwind w = (report, t.world)
  attempted : t.attempts.map (fun a => (a.step, a.position)) =
    (l.steps.map (·.name)).zipIdx.reverse
  undone : report.undone = (t.attempts.filter (·.succeeded)).map (·.step)
  left : report.left = t.attempts.filterMap (·.leftover?)
  covered : (report.undone ++ report.left.map (·.step)).Perm (l.steps.map (·.name))
  clean : report.isClean = true ↔ ∀ a ∈ t.attempts, a.answer = .ok ()
  kind_cancelled : ∀ stage,
    (report.cancelled stage).kind = if report.isClean then .cancelled else .internal
  kind_fault : ∀ cause, (report.fault cause).kind = .internal
  cause_told : ∀ cause, cause.text.toList <:+: (report.fault cause).text.toList
  left_told : ∀ cause, ∀ o ∈ report.left, o.step.toList <:+: (report.fault cause).text.toList

theorem Log.unwinds (l : Log World) (w : World) :
    (∃ report t, l.traced.unwind { world := w } = (report, t) ∧ l.Unwinds w report t) ∧
      ∀ t, l.traced.commit.run t = (.ok (), t) := by
  refine ⟨?_, fun _ => rfl⟩
  obtain ⟨as, w', htraced, hplain, hsteps⟩ :=
    unwindSteps_traced l.steps.zipIdx.reverse { world := w }
  rw [List.map_reverse] at htraced
  rw [List.map_reverse, List.zipIdx_map_fst] at hplain
  -- positions are counted in the order of recording, which undoing turns round
  have hattempted : as.map (fun a => (a.step, a.position)) =
      (l.steps.map (·.name)).zipIdx.reverse := by
    rw [hsteps, List.map_reverse, List.zipIdx_map]
    rfl
  have hnames : as.map (·.step) = (l.steps.map (·.name)).reverse := by
    have hfirst := congrArg (List.map Prod.fst) hattempted
    rwa [List.map_map, List.map_reverse, List.zipIdx_map_fst] at hfirst
  have hcovered : (as.map (·.step)).Perm (l.steps.map (·.name)) := by
    rw [hnames]
    exact List.reverse_perm _
  exact ⟨_, _, htraced, {
    untraced := hplain
    attempted := hattempted
    undone := rfl
    left := rfl
    covered := (Attempt.steps_report_perm as).trans hcovered
    clean := Attempt.isClean_report as
    kind_cancelled := Report.kind_cancelled _
    kind_fault := fun _ => rfl
    cause_told := Report.cause_infix_text_fault _
    left_told := fun cause o ho => Report.step_infix_text_fault ho cause }⟩

end VirtualInfra.Undo
