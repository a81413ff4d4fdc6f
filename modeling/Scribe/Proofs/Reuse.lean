import Mathlib.Tactic.Common
import Scribe.Proofs.Trace
import Scribe.Session

/-!
# A writer is as good as new after any call

While a render lasts, the writer holds its layout, and a fault can leave that layout anywhere: in the
header of a loop, levels deep, inside the body of a function. `Writer.Idle` is the invariant that
makes this harmless. An idle writer replies like a new one and is idle again after the call
(`Writer.call_idle`), so in a session no call sees anything of those before it
(`Session.replies_alone`).

A call that is made in the middle of a render does see it: joining a render is going on with its
script (`Writer.render_append`), which is why members are written as parts of the script of their
type.
-/

namespace Scribe

open Script

namespace Writer

variable {w : Writer}

/-- A writer that is in the middle of nothing. -/
def Idle (w : Writer) : Prop := w.active = none

/-- A render that is joined goes on: what `b` writes after `a`, in the same render, is what the two
write as one script. -/
theorem render_append {l : Layout} (h : w.active = some l) {a : Script} (ha : a.fault = none)
    (b : Script) :
    w.render (a ++ b) =
      (((w.render a).1.render b).1,
        { (w.render a).1.render b |>.2 with
          events := (w.render a).2.events ++ ((w.render a).1.render b).2.events }) := by
  have hrun : (a ++ b).run l = { b.run (a.after l) with
      events := (a.run l).events ++ (b.run (a.after l)).events } := by
    rw [run_eq, run_eq, run_eq, steps_append_of_none ha, Step.runAll_append, fault_append, ha]
    simp [after, notice]
  have hlayout : (a.run l).layout = a.after l := by rw [run_eq, after]
  simp only [render, proceed, h, hrun, hlayout]

/-- A render of an idle writer runs on a new layout, whatever becomes of it. -/
theorem render_idle (h : w.Idle) (s : Script) : w.render s = (w, s.outcome) := by
  obtain ⟨c, active⟩ := w
  obtain rfl : active = none := h
  rfl

/-- An idle writer replies like a new one, and the call leaves it as it was: with a fault or without,
nothing of the layout is kept. -/
theorem call_idle (h : w.Idle) (call : Call) : w.call call = (w, call.reply w.context) := by
  unfold Writer.call Call.reply Call.offered
  split_ifs
  · cases call.script? w.context with
    | some s => simp only [render_idle h]; rfl
    | none => rfl
  · rfl

/-- A new writer is idle. -/
theorem idle_new (c : Context) : Idle { context := c } := rfl

end Writer

namespace Session

/-- What an idle writer replies to a sequence of calls, it replies to each of them. -/
theorem runFrom_replies {w : Writer} (h : w.Idle) (margin : Margin) (calls : List Call) :
    (runFrom w margin calls).map Prod.fst = calls.map (·.reply w.context) := by
  induction calls generalizing margin with
  | nil => rfl
  | cons call calls ih =>
    -- The writer after the call is the one before it, so the invariant holds of the rest.
    rw [runFrom, w.call_idle h]
    simp only [List.map_cons, ih]

/-- In a session with any calls in any order, each succeeding or not, the tokens and the outcome of
every call are those of the call alone on a new writer. -/
theorem replies_alone (c : Context) (margin : Margin) (calls : List Call) :
    (run c margin calls).map Prod.fst =
      calls.map fun call => (Writer.call { context := c } call).2 := by
  rw [run, runFrom_replies (Writer.idle_new c)]
  refine List.map_congr_left fun call _ => ?_
  rw [Writer.call_idle (Writer.idle_new c)]

/-- In the middle of a loop header a fault leaves the header open, and the level of the function
around it; the next call finds neither. -/
example :
    let loop : Value := .stmt (.for (.stmt .bare) .null .null .null)
    let function : Value := .expr (.function (.list []) (.stmt (.block (.list [loop]))) .null)
    let w : Writer := { context := { program := {} } }
    (w.proceed {} (w.context.expression function)).1.active =
        some { depth := 1, forHeader := true, suspended := [(false, false)] } ∧
      (w.call (.expression function)).1.active = none := by
  decide

end Session

end Scribe
