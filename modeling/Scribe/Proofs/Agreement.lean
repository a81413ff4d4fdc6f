import Mathlib.Data.List.Forall2
import Scribe.Proofs.Congruence
import Scribe.Proofs.Trace

/-!
# Renders that agree

`Script.Agree F T`: two scripts whose faults `F` relates and that take the same steps, but for tokens
that `T` relates and for what they log. Agreeing is a congruence. Where related tokens move the margin alike,
a run of the one script and a run of the other stay on the same layout, and the tokens that they write
are related one by one (`Script.Agree.tokens`).
-/

namespace Scribe

/-- A relation of tokens that moves the margin alike. -/
structure Token.Aligned (T : Token → Token → Prop) : Prop where
  refl (t : Token) : T t t
  move {t u : Token} : T t u → ∀ l : Layout, l.move t = l.move u

variable {T : Token → Token → Prop}

namespace Step

/-- The same step, but for a token that is related and for what is logged. -/
inductive Agree (T : Token → Token → Prop) : Step → Step → Prop
  | token {t u : Token} : T t u → Agree T (.token t) (.token u)
  | log (entry entry' : LogEntry) : Agree T (.log entry) (.log entry')
  | same (s : Step) : Agree T s s

theorem Agree.apply {s t : Step} (h : Agree T s t) (hT : Token.Aligned T) (l : Layout) :
    (s.apply l).1 = (t.apply l).1 ∧ List.Forall₂ T ((s.apply l).2.filterMap Event.token?)
      ((t.apply l).2.filterMap Event.token?) := by
  cases h with
  | token h => exact ⟨hT.move h l, .cons h .nil⟩
  | log => exact ⟨rfl, .nil⟩
  | same => exact ⟨rfl, List.forall₂_same.2 fun t _ => hT.refl t⟩

theorem agree_runAll {ss ts : List Step} (h : List.Forall₂ (Agree T) ss ts) (hT : Token.Aligned T)
    (l : Layout) : List.Forall₂ T ((runAll l ss).2.filterMap Event.token?)
      ((runAll l ts).2.filterMap Event.token?) := by
  induction h generalizing l with
  | nil => exact .nil
  | @cons s t ss ts h _ ih =>
    obtain ⟨hlayout, htokens⟩ := h.apply hT l
    simp only [runAll, List.filterMap_append]
    rw [← hlayout]
    exact List.rel_append htokens (ih _)

end Step

namespace Script

/-- Related faults, and the same steps but for what `T` relates. -/
structure Agree (F : Fault → Fault → Prop) (T : Token → Token → Prop) (a b : Script) : Prop where
  fault : Option.Rel F a.fault b.fault
  steps : List.Forall₂ (Step.Agree T) a.steps b.steps

namespace Agree

variable {F : Fault → Fault → Prop} {a b : Script}

theorem congruence (hF : ∀ f, F f f) (T : Token → Token → Prop) : Congruence (Agree F T) where
  empty := ⟨.none, .nil⟩
  step s := ⟨.none, .cons (.same s) .nil⟩
  fail f := ⟨.some (hF f), .nil⟩
  append {a a' b b'} ha hb := by
    have hfault := ha.fault
    cases hf : a.fault with
    | none =>
      rw [hf] at hfault
      have hf' : a'.fault = none := by cases h : a'.fault <;> simp_all
      refine ⟨by simpa [hf, hf'] using hb.fault, ?_⟩
      rw [steps_append_of_none hf, steps_append_of_none hf']
      exact List.rel_append ha.steps hb.steps
    | some f =>
      rw [hf] at hfault
      obtain ⟨f', hf'⟩ : ∃ f', a'.fault = some f' := by cases h : a'.fault <;> simp_all
      refine ⟨by simpa [hf, hf'] using hfault, ?_⟩
      rw [steps_append_of_some hf, steps_append_of_some hf']
      exact ha.steps
  delayed h := ⟨h.fault, h.steps⟩

theorem token {t u : Token} (h : T t u) : Agree F T (token t) (token u) :=
  ⟨.none, .cons (.token h) .nil⟩

theorem log (entry entry' : LogEntry) : Agree F T (step (.log entry)) (step (.log entry')) :=
  ⟨.none, .cons (.log entry entry') .nil⟩

theorem fault_eq (h : Agree Eq T a b) : a.fault = b.fault := by
  have hfault := h.fault
  generalize a.fault = f at hfault ⊢
  generalize b.fault = f' at hfault ⊢
  cases hfault with
  | none => rfl
  | some h => exact congrArg some h

/-- Nothing is written before either fault. -/
theorem fail {f f' : Fault} (h : F f f') : Agree F T (fail f) (fail f') := ⟨.some h, .nil⟩

/-- Scripts that agree write related tokens. -/
theorem tokens (h : Agree F T a b) (hT : Token.Aligned T) :
    List.Forall₂ T a.outcome.tokens b.outcome.tokens := by
  rw [outcome_tokens, outcome_tokens]
  exact Step.agree_runAll h.steps hT {}

end Agree

end Script

end Scribe
