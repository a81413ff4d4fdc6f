import Scribe.Proofs.Trace

/-!
# Parts of a script

`Script.Within t s`: `t` stands in `s`. If `s` does not fault, neither does `t`, and what
`t` writes stands in what `s` writes without a gap (`Within.tokens`).
-/

namespace Scribe

namespace Script

/-- Whether a script stands in another. -/
inductive Within (t : Script) : Script → Prop
  | refl : Within t t
  | left {a b : Script} : Within t a → Within t (a ++ b)
  | right {a b : Script} : Within t b → Within t (a ++ b)
  | later {part : Unit → Script} : Within t (part ()) → Within t (delayed part)

namespace Within

variable {a b s t u : Script} {l : List Script} {v : Value}

theorem trans (h : Within t s) (h' : Within s u) : Within t u := by
  induction h' with
  | refl => exact h
  | left _ ih => exact .left ih
  | right _ ih => exact .right ih
  | later _ ih => exact .later ih

theorem fault (h : Within t s) (hf : s.fault = none) : t.fault = none := by
  induction h with
  | refl => exact hf
  | left _ ih => exact ih (fault_append_eq_none.1 hf).1
  | right _ ih => exact ih (fault_append_eq_none.1 hf).2
  | later _ ih => exact ih hf

theorem steps (h : Within t s) (hf : s.fault = none) :
    ∃ before after, s.steps = before ++ t.steps ++ after := by
  induction h with
  | refl => exact ⟨[], [], by simp⟩
  | @left a b _ ih =>
    obtain ⟨hfa, -⟩ := fault_append_eq_none.1 hf
    obtain ⟨before, after, he⟩ := ih hfa
    exact ⟨before, after ++ b.steps, by rw [steps_append_of_none hfa, he]; simp⟩
  | @right a b _ ih =>
    obtain ⟨hfa, hfb⟩ := fault_append_eq_none.1 hf
    obtain ⟨before, after, he⟩ := ih hfb
    exact ⟨a.steps ++ before, after, by rw [steps_append_of_none hfa, he]; simp⟩
  | later _ ih => exact ih hf

theorem tokens (h : Within t s) (hf : s.fault = none) (l : Layout) :
    ∃ m before after, s.tokens l = before ++ t.tokens m ++ after := by
  obtain ⟨before, after, he⟩ := h.steps hf
  refine ⟨(Step.runAll l before).1, (Step.runAll l before).2.filterMap Event.token?,
    (Step.runAll (Step.runAll l (before ++ t.steps)).1 after).2.filterMap Event.token?, ?_⟩
  simp only [Script.tokens, events, he, Step.runAll_append, List.filterMap_append]

/-! ### Shapes -/

theorem indented (h : Within t a) : Within t (indented a) := .left (.right h)

theorem between (opening closing : String) (h : Within t a) : Within t (between opening closing a) :=
  .left (.right h)

theorem concat (h : t ∈ l) : Within t (concat l) := by
  induction l with
  | nil => cases h
  | cons s l ih =>
    rcases List.mem_cons.1 h with rfl | h
    · exact .left .refl
    · exact .right (ih h)

theorem commaSeparated (h : t ∈ l) : Within t (commaSeparated l) := by
  unfold Script.commaSeparated
  induction l with
  | nil => cases h
  | cons s l ih =>
    cases l with
    | nil =>
      obtain rfl := List.mem_singleton.1 h
      exact .refl
    | cons s' l =>
      rcases List.mem_cons.1 h with rfl | h
      · exact .left (.left .refl)
      · exact .right (ih h)

theorem blockItems (index : Nat) (h : t ∈ l) : Within t (blockItems index l) := by
  induction l generalizing index with
  | nil => cases h
  | cons s l ih =>
    rcases List.mem_cons.1 h with rfl | h
    · exact .left (.right .refl)
    · exact .right (ih (index + 1) h)

theorem block (h : t ∈ l) : Within t (block l) := by
  unfold Script.block
  split
  · exact .left (.left (.left (.right (.blockItems 0 h))))
  · exact .left (.right (.blockItems 0 h))

theorem unary (operator : Value) (hf : (unary operator t).fault = none) : Within t (unary operator t) := by
  unfold Script.unary at hf ⊢
  split
  · exact .right .refl
  · exact .left .refl
  · next h h' => simp [h, h'] at hf

theorem binary {operator : Value} (hf : (binary operator a b).fault = none) :
    Within a (binary operator a b) ∧ Within b (binary operator a b) := by
  unfold Script.binary at hf ⊢
  split
  · exact ⟨.between _ _ (.left (.left .refl)), .between _ _ (.right .refl)⟩
  · next h => simp [h] at hf

theorem body (h : Within t a) : Within t (body a) := .left (.right h)

theorem braced (h : Within t a) : Within t (braced a) := .left (.left (.right (.indented (.body h))))

theorem simple (h : Within t a) : Within t (simple a) := .left (.right h)

theorem optionally (hv : v.isNull = false) (h : Within t a) : Within t (v.optionally a) := by
  rw [Value.optionally, hv]
  exact h

theorem unlessEmpty {statements : Value} (hv : v = .stmt (.block statements))
    (hs : statements.isSet = true) (h : Within t a) : Within t (v.unlessEmpty a) := by
  subst hv
  rw [Value.unlessEmpty, hs]
  exact h

theorem asTarget (hv : v.isNull = false) : Within t (v.asTarget t) := by
  refine .optionally hv (.left ?_)
  split
  · exact .between _ _ .refl
  · exact .refl

theorem asCondition (hv : v.isNull = false) : Within t (v.asCondition t) := by
  unfold Value.asCondition
  split
  · cases hv
  · exact .refl
  · exact .between _ _ .refl

theorem asCallee (v : Value) : Within t (v.asCallee t) := by
  unfold Value.asCallee
  split
  · exact .refl
  · exact .between _ _ .refl

end Within

end Script

end Scribe
