import Mathlib.Tactic.Common
import Scribe.Proofs.Trace

/-!
# Scripts that complete

`Script.Completes s`: the script has no fault, and all that it writes is text. A script completes just
if its parts do, so the lemmas here are equivalences: `simp` takes a script apart with them and leaves
what has to be known of the slots it was made from. `Completes.plainText` is what they are for: such a
script has a plain text.
-/

namespace Scribe

theorem Value.isNull_iff {v : Value} : v.isNull = true ↔ v = .null := by
  constructor
  · intro h
    unfold isNull at h
    split at h
    · rfl
    · cases h
  · rintro rfl
    rfl

namespace Step

/-- Whether what a step writes is text. -/
def isWritable : Step → Bool
  | .token t => t.isWritable
  | .label name => name.isText
  | _ => true

@[simp] theorem isText_mapText (s : Scalar) (f : String → String) :
    (s.mapText f).isText = s.isText := by
  cases s <;> rfl

theorem apply_isWritable {s : Step} (h : s.isWritable = true) (l : Layout) :
    ((s.apply l).2.filterMap Event.token?).all Token.isWritable = true := by
  have hseparator : l.separator.2.all Token.isWritable = true := by
    rw [Layout.separator_snd]
    split_ifs <;> rfl
  cases s with
  | token t => simpa [apply, Event.token?, isWritable] using h
  | log | openBody | terminate | header | enter | leave => rfl
  | closeBody => rwa [apply, Script.filterMap_token, Layout.closeBody_snd]
  | separator => rwa [apply, Script.filterMap_token]
  | finish =>
    rw [apply, Script.filterMap_token, Layout.finish]
    dsimp only
    split_ifs <;> rfl
  | label name =>
    have hname : name.isText = true := h
    rw [apply, Script.filterMap_token, Layout.label_snd]
    split_ifs <;> simp [Token.isWritable, hname]

theorem runAll_isWritable {steps : List Step} (h : ∀ s ∈ steps, s.isWritable = true) (l : Layout) :
    ((runAll l steps).2.filterMap Event.token?).all Token.isWritable = true := by
  induction steps generalizing l with
  | nil => rfl
  | cons s steps ih =>
    obtain ⟨hs, hsteps⟩ := List.forall_mem_cons.1 h
    simp only [runAll, List.filterMap_append, List.all_append, apply_isWritable hs, ih hsteps,
      Bool.and_self]

end Step

namespace Script

variable {a b s : Script} {l : List Script} {v : Value}

/-- The script has no fault and writes nothing but texts. -/
def Completes (s : Script) : Prop := s.fault = none ∧ ∀ t ∈ s.steps, t.isWritable = true

theorem Completes.tokens (h : s.Completes) : s.outcome.tokens.all Token.isWritable = true := by
  rw [outcome_tokens]
  exact Step.runAll_isWritable h.2 {}

/-- What completes has a plain text. -/
theorem Completes.plainText (h : s.Completes) : ∃ t, s.plainText = .ok t := by
  rw [Script.plainText, outcome_fault, h.1]
  dsimp only
  rw [if_pos h.tokens]
  exact ⟨_, rfl⟩

/-! ### Parts -/

@[simp] theorem completes_empty : (∅ : Script).Completes := ⟨rfl, List.forall_mem_nil _⟩

@[simp] theorem completes_fail (f : Fault) : ¬ (fail f).Completes :=
  fun h => Option.some_ne_none f h.1

@[simp] theorem completes_step (t : Step) : (step t).Completes ↔ t.isWritable = true :=
  ⟨fun h => h.2 t (List.mem_singleton_self t), fun h => ⟨rfl, List.forall_mem_singleton.2 h⟩⟩

@[simp] theorem completes_append : (a ++ b).Completes ↔ a.Completes ∧ b.Completes := by
  constructor
  · rintro ⟨hf, hw⟩
    obtain ⟨hfa, hfb⟩ := fault_append_eq_none.1 hf
    rw [steps_append_of_none hfa, List.forall_mem_append] at hw
    exact ⟨⟨hfa, hw.1⟩, hfb, hw.2⟩
  · rintro ⟨ha, hb⟩
    refine ⟨fault_append_eq_none.2 ⟨ha.1, hb.1⟩, ?_⟩
    rw [steps_append_of_none ha.1, List.forall_mem_append]
    exact ⟨ha.2, hb.2⟩

@[simp] theorem completes_delayed (part : Unit → Script) :
    (delayed part).Completes ↔ (part ()).Completes := Iff.rfl

@[simp] theorem completes_token (t : Token) : (token t).Completes ↔ t.isWritable = true :=
  completes_step _

@[simp] theorem completes_text (t : String) : (text t).Completes := (completes_token _).2 rfl

@[simp] theorem completes_lineBreak : lineBreak.Completes := (completes_token _).2 rfl

@[simp] theorem completes_given_ok {α : Type} (x : α) (next : α → Script) :
    (given (.ok x) next).Completes ↔ (next x).Completes := Iff.rfl

@[simp] theorem completes_content_text (t : String) : (content (.ofText t)).Completes :=
  completes_text t

@[simp] theorem completes_declaration_text (t : String) (target : Option Target) :
    (declaration (.ofText t) target).Completes := (completes_token _).2 rfl

@[simp] theorem completes_reference_text (t tooltip : String) (target : Target) :
    (reference (.ofText t) tooltip target).Completes := (completes_token _).2 rfl

@[simp] theorem completes_indented : (indented a).Completes ↔ a.Completes := by
  simp [indented, Token.isWritable]

@[simp] theorem completes_concat : (concat l).Completes ↔ ∀ s ∈ l, s.Completes := by
  induction l with
  | nil => exact iff_of_true completes_empty (List.forall_mem_nil _)
  | cons s l ih => rw [concat, List.foldr_cons, completes_append, List.forall_mem_cons, ← ih, concat]

@[simp] theorem completes_commaSeparated : (commaSeparated l).Completes ↔ ∀ s ∈ l, s.Completes := by
  unfold commaSeparated
  induction l with
  | nil => exact iff_of_true completes_empty (List.forall_mem_nil _)
  | cons s l ih =>
    cases l with
    | nil => simp [joined]
    | cons t l => simp [joined, ih]

/-! ### Shapes -/

@[simp] theorem completes_between (opening closing : String) :
    (between opening closing a).Completes ↔ a.Completes := by
  simp [between]

@[simp] theorem completes_parenthesized : (parenthesized a).Completes ↔ a.Completes :=
  completes_between ..

@[simp] theorem completes_bracketed : (bracketed a).Completes ↔ a.Completes := completes_between ..

@[simp] theorem completes_unary {operator : Value} : (unary operator a).Completes ↔
    ((leadingSymbol? operator).isSome ∨ (trailingSymbol? operator).isSome) ∧ a.Completes := by
  unfold unary
  split <;> simp [*]

@[simp] theorem completes_binary {operator : Value} : (binary operator a b).Completes ↔
    (binarySymbol? operator).isSome ∧ a.Completes ∧ b.Completes := by
  unfold binary
  split <;> simp [*]

theorem completes_blockItems (index : Nat) :
    (blockItems index l).Completes ↔ ∀ s ∈ l, s.Completes := by
  induction l generalizing index with
  | nil => exact iff_of_true completes_empty (List.forall_mem_nil _)
  | cons s l ih =>
    rw [blockItems, completes_append, completes_append, ih, List.forall_mem_cons]
    split_ifs <;> simp

@[simp] theorem completes_block : (block l).Completes ↔ ∀ s ∈ l, s.Completes := by
  unfold block
  split_ifs <;> simp [completes_blockItems, Token.isWritable]

@[simp] theorem completes_body : (body a).Completes ↔ a.Completes := by
  simp [body, Step.isWritable]

@[simp] theorem completes_braced : (braced a).Completes ↔ a.Completes := by
  simp [braced, Step.isWritable]

@[simp] theorem completes_simple : (simple a).Completes ↔ a.Completes := by
  simp [simple, Step.isWritable]

@[simp] theorem completes_comment (lines : List String) : (comment lines).Completes := by
  unfold comment
  split <;> simp

@[simp] theorem completes_rethrow : rethrow.Completes := by simp [rethrow]

@[simp] theorem completes_caseLabel : (caseLabel a).Completes ↔ a.Completes := by
  simp [caseLabel]

@[simp] theorem completes_optionally :
    (v.optionally a).Completes ↔ (v.isNull = false → a.Completes) := by
  unfold Value.optionally
  cases v.isNull <;> simp

@[simp] theorem completes_unlessEmpty (statements : Value) :
    ((Value.stmt (.block statements)).unlessEmpty a).Completes ↔
      (statements.isSet = true → a.Completes) := by
  unfold Value.unlessEmpty
  dsimp only
  split_ifs with h <;> simp [h]

@[simp] theorem completes_asTarget :
    (v.asTarget a).Completes ↔ (v.isNull = false → a.Completes) := by
  rw [Value.asTarget, completes_optionally]
  split_ifs <;> simp

/-- A missing condition is written too. -/
@[simp] theorem completes_asCondition :
    (v.asCondition a).Completes ↔ (v.isNull = false → a.Completes) := by
  unfold Value.asCondition
  split
  · exact iff_of_true (completes_text _) nofun
  · simp [Value.isNull]
  · next hv _ =>
    have hn : v.isNull = false := Bool.eq_false_iff.2 fun h => hv (Value.isNull_iff.1 h)
    simp [hn]

@[simp] theorem completes_asCallee : (v.asCallee a).Completes ↔ a.Completes := by
  unfold Value.asCallee
  split <;> simp

end Script

end Scribe
