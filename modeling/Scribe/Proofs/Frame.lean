import Scribe.Proofs.Neutral

/-!
# The frame of an expression

An expression does not see the layout that it stands in, nor leave more of it changed than the first
statement of a body, and that just where it writes a function: `Context.expression_frame`. The body of a
function is placed like any other, headers and labels included, but what it interrupts is set aside
when it opens and taken back when it closes.
-/

namespace Scribe

open Layout

namespace Script

variable {a b c s : Script}

/-- Whether a function is written. -/
def hasFunction (s : Script) : Bool := s.steps.contains .enter

theorem hasFunction_append (hf : a.fault = none) :
    (a ++ b).hasFunction = (a.hasFunction || b.hasFunction) := by
  rw [hasFunction, steps_append_of_none hf, List.contains_append, hasFunction, hasFunction]

theorem hasFunction_indented (hf : s.fault = none) : (indented s).hasFunction = s.hasFunction := by
  have hopen : (token .indent ++ s).hasFunction = s.hasFunction := hasFunction_append rfl
  rw [indented, hasFunction_append (by simpa using hf), hopen]
  exact Bool.or_false _

/-- Without a fault the layout is as it was, but that after a function the next statement is not the first
of its body. -/
def Settles (s : Script) : Prop :=
  s.fault = none → ∀ l : Layout, 0 ≤ l.depth → s.after l = l.settle (!s.hasFunction)

namespace Settles

theorem empty : Settles ∅ := fun _ l _ => (settle_true l).symm

theorem fail (f : Fault) : Settles (fail f) := nofun

theorem of_still {t : Token} (h : ∀ l : Layout, l.move t = l) : Settles (token t) :=
  fun _ l _ => (h l).trans (settle_true l).symm

theorem text (s : String) : Settles (text s) := .of_still fun _ => rfl

theorem append (ha : Settles a) (hb : Settles b) : Settles (a ++ b) := by
  intro hf l hl
  obtain ⟨hfa, hfb⟩ := fault_append_eq_none.1 hf
  rw [after_append hfa, ha hfa l hl, hb hfb (l.settle _) hl, settle_settle, hasFunction_append hfa,
    Bool.not_or]

theorem sequential : Sequential Settles := ⟨.empty, .append⟩

theorem congr (he : b.steps = a.steps) (hf : b.fault = a.fault) (h : Settles a) : Settles b := by
  unfold Settles hasFunction after at *
  rwa [he, hf]

theorem indented (h : Settles s) : Settles (indented s) := by
  intro hf l hl
  rw [fault_indented] at hf
  have hin : 0 ≤ (l.move .indent).depth := by
    show 0 ≤ l.depth + 1
    omega
  rw [after_indented hf, h hf _ hin, hasFunction_indented hf]
  simp [move, settle]

/-- The body of a function closes with a separator, so no statement is the first after it. -/
theorem function {d : Script} (hd : Neutral d) (hs : ∀ x, Parallel s x x) :
    Settles (Script.indented (step .enter ++ d ++ body s ++ step .leave)) := by
  intro hf l hl
  rw [fault_indented] at hf
  obtain ⟨hfd, hfs⟩ : d.fault = none ∧ s.fault = none := by simpa using hf
  have hin : 0 < (l.move .indent).depth := by
    show 0 < l.depth + 1
    omega
  have hfunction : (step .enter ++ d ++ body s ++ step .leave).hasFunction = true := by
    rw [hasFunction_append (by simp [hfd, hfs]), hasFunction_append (by simpa using hfd),
      hasFunction_append rfl]
    rfl
  rw [after_indented hf, function_after hd hs hin hfd hfs, hasFunction_indented hf, hfunction]
  simp [move, settle]

end Settles

theorem IsName.settles (h : IsName s) : Settles s := by
  cases h with
  | fail f => exact .fail f
  | token name target => exact .of_still fun _ => rfl

/-- Expressions settle. Statements need no case of their own: what they do to the layout is known from
their runs in parallel, and an expression has them only in the bodies of functions. -/
theorem Fits.settles {r : Role} (h : Fits r s) (hr : r = .inline) : Settles s := by
  induction h with
  | empty => exact .empty
  | fail f => exact .fail f
  | @token t h => exact .of_still fun l => by cases t <;> first | rfl | cases h
  | names hs h =>
    exact (Settles.text _).append (Settles.sequential.commaSeparated (.text _) fun n hn => (h n hn).settles)
  | append _ _ ha hb => exact (ha rfl).append (hb rfl)
  | delayed _ h => exact h rfl
  | indented _ h => exact (h rfl).indented
  | wrapped _ _ _ ha hb hc =>
    exact .congr (steps_wrapped _ _ _) (fault_wrapped _ _ _)
      ((ha rfl).append ((hb rfl).append (hc rfl)).indented)
  | function hd hs => exact .function hd.neutral hs.law
  | _ => cases hr

end Script

open Script

/-- Whatever the layout that an expression is rendered on, as long as it is not left of the first column,
the render leaves the same behind and comes to the same outcome as one on its own. Without a fault it
gives the layout back, in the header of a loop or not and whatever the last statement needs; the next
statement is no longer the first of its body just where a function was written. -/
theorem Context.expression_frame (c : Context) (v : Value) {l : Layout} (hl : 0 ≤ l.depth) :
    let alone := (c.exprSlot v).outcome
    let inside := (c.exprSlot v).run l
    (inside.events = alone.events ∧ inside.fault = alone.fault) ∧
      (inside.fault = none →
        inside.layout.depth = l.depth ∧ inside.layout.forHeader = l.forHeader ∧
        inside.layout.needsTerminator = l.needsTerminator ∧
        inside.layout.suspended = l.suspended ∧
        inside.layout.firstStatement = (l.firstStatement && !(c.exprSlot v).hasFunction)) := by
  intro alone inside
  obtain ⟨keeps, hkeeps⟩ := c.exprSlot_neutral v
  have hevents : inside.events = alone.events := by
    rw [run_events, (hkeeps l hl).1]
    exact (run_events _ _).symm
  refine ⟨⟨hevents, (run_fault _ _).trans (run_fault _ _).symm⟩, fun hf => ?_⟩
  have hlayout : inside.layout = l.settle (!(c.exprSlot v).hasFunction) := by
    have hafter : inside.layout = (c.exprSlot v).after l := congrArg Outcome.layout (run_eq _ l)
    rw [hafter]
    exact (c.exprSlot_fits v).settles rfl ((run_fault _ _).symm.trans hf) l hl
  rw [hlayout]
  exact ⟨rfl, rfl, rfl, rfl, rfl⟩

/-- A function in the header of a loop, two levels in. In its body stand a loop with functions in its own
header, under a label, and a switch with a function for a label. -/
theorem Context.expression_frame_nested :
    let c : Context := { program := {} }
    let function (statements : List Value) : Value :=
      .expr (.function (.list []) (.stmt (.block (.list statements))) .null)
    let inner := function [.stmt (.return .null)]
    let part := .stmt (.expression inner)
    let loop := .stmt (.labeled 0 (.ofText "again") (.stmt (.for part inner part .null)))
    let switch := .stmt (.switch (.expr .this) (.list [.clause (.case .null inner)]))
    let v := function [loop, switch]
    let l : Layout := { depth := 2, forHeader := true, needsTerminator := true }
    0 ≤ l.depth ∧ ((c.exprSlot v).run l).fault = none ∧
      ((c.exprSlot v).run l).events = (c.exprSlot v).outcome.events ∧
      ((c.exprSlot v).run l).layout.depth = 2 ∧ ((c.exprSlot v).run l).layout.forHeader = true ∧
      ((c.exprSlot v).run l).layout.needsTerminator = true ∧
      ((c.exprSlot v).run l).layout.suspended = [] ∧
      ((c.exprSlot v).run l).layout.firstStatement = false := by
  intro c function inner part loop switch v l
  have hl : 0 ≤ l.depth := by decide
  have hf : ((c.exprSlot v).run l).fault = none := by decide
  have hfunction : (c.exprSlot v).hasFunction = true := by decide
  obtain ⟨⟨hevents, -⟩, hkept⟩ := c.expression_frame v hl
  obtain ⟨hdepth, hheader, hneeds, hsuspended, hfirst⟩ := hkept hf
  rw [hfunction] at hfirst
  exact ⟨hl, hf, hevents, hdepth, hheader, hneeds, hsuspended, hfirst⟩

end Scribe
