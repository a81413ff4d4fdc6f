import Scribe.Proofs.Congruence
import Scribe.Proofs.Neutral
import Scribe.Proofs.Within
import Scribe.Render

/-!
# Labels of a switch

A case has one label for each alternative of its condition. The alternatives are the leaves of a tree
of `boolean_or`s, and how the tree is put together leaves no trace in what is written:
`Context.switch_labels`. That two renders are the same is shown on their scripts, which may differ
in how they are put together from their steps (`Script.SameSteps`).
-/

namespace Scribe

open Script

/-! ### Scripts with the same steps -/

namespace Script

variable {a b s : Script}

/-- The same steps up to the same fault. -/
structure SameSteps (a b : Script) : Prop where
  steps : a.steps = b.steps
  fault : a.fault = b.fault

namespace SameSteps

theorem congruence : Congruence SameSteps where
  empty := ⟨rfl, rfl⟩
  step _ := ⟨rfl, rfl⟩
  fail _ := ⟨rfl, rfl⟩
  append ha hb := ⟨by simp only [steps_append, ha.steps, ha.fault, hb.steps],
    by simp only [fault_append, ha.fault, hb.fault]⟩
  delayed h := ⟨h.steps, h.fault⟩

theorem refl (s : Script) : SameSteps s s := ⟨rfl, rfl⟩

theorem symm (h : SameSteps a b) : SameSteps b a := ⟨h.steps.symm, h.fault.symm⟩

theorem trans (h : SameSteps a b) (h' : SameSteps b s) : SameSteps a s :=
  ⟨h.steps.trans h'.steps, h.fault.trans h'.fault⟩

theorem assoc (a b s : Script) : SameSteps (a ++ b ++ s) (a ++ (b ++ s)) :=
  ⟨steps_append_assoc a b s, by simp only [fault_append, Option.or_assoc]⟩

theorem append_empty (a : Script) : SameSteps (a ++ ∅) a :=
  ⟨by simp [steps_append], by simp⟩

/-- Two lists of scripts, one after the other. -/
theorem concat_append (l l' : List Script) : SameSteps (concat (l ++ l')) (concat l ++ concat l') := by
  induction l with
  | nil => exact ⟨by simp [concat, steps_append], by simp [concat]⟩
  | cons s l ih => exact (congruence.after s ih).trans (assoc s _ _).symm

/-- A run takes no notice of how a script is put together. -/
theorem run (h : SameSteps a b) (l : Layout) : a.run l = b.run l := by
  rw [run_eq, run_eq, h.steps, h.fault]

theorem tokens (h : SameSteps a b) (l : Layout) : a.tokens l = b.tokens l := by
  simp only [Script.tokens, events, h.steps]

end SameSteps

/-- Neutral scripts write one after the other what they write alone. -/
theorem Neutral.written_concat {l : List Script} (h : ∀ s ∈ l, Neutral s)
    (hf : (Script.concat l).fault = none) : (Script.concat l).written = l.flatMap Script.written := by
  induction l with
  | nil => rfl
  | cons s l ih =>
    obtain ⟨hs, hl⟩ := List.forall_mem_cons.1 h
    obtain ⟨hfs, hfl⟩ := fault_append_eq_none.1 hf
    rw [List.flatMap_cons, ← ih hl hfl]
    exact hs.written_append (.concat hl) hfs

end Script

/-! ### Alternatives -/

namespace Value

/-- The leaves of a tree of `boolean_or`s, from left to right. -/
def alternatives : Value → List Value
  | .expr (.binary left operator right) =>
    if operator.isText "boolean_or" then left.alternatives ++ right.alternatives
    else [.expr (.binary left operator right)]
  | v => [v]
termination_by structural v => v

/-- A condition that holds where one of two does. -/
def either (a b : Value) : Value := .expr (.binary a (.ofText "boolean_or") b)

theorem alternatives_either (a b : Value) :
    (a.either b).alternatives = a.alternatives ++ b.alternatives := rfl

/-- Conditions that differ in nothing but the grouping of their alternatives. -/
inductive Reassociated : Value → Value → Prop
  | refl (v : Value) : Reassociated v v
  | rotate (a b d : Value) : Reassociated ((a.either b).either d) (a.either (b.either d))
  | either {a a' b b' : Value} :
    Reassociated a a' → Reassociated b b' → Reassociated (a.either b) (a'.either b')
  | symm {a b : Value} : Reassociated a b → Reassociated b a
  | trans {a b d : Value} : Reassociated a b → Reassociated b d → Reassociated a d

theorem Reassociated.alternatives_eq {v w : Value} (h : Reassociated v w) :
    v.alternatives = w.alternatives := by
  induction h with
  | refl => rfl
  | rotate a b d => simp only [alternatives_either, List.append_assoc]
  | either _ _ ha hb => rw [alternatives_either, alternatives_either, ha, hb]
  | symm _ ih => exact ih.symm
  | trans _ _ ih ih' => exact ih.trans ih'

/-- The same case of a switch, but for the grouping of the alternatives of its condition. -/
inductive ReassociatedCase : Value → Value → Prop
  | same (v : Value) : ReassociatedCase v v
  | case (body : Value) {test test' : Value} :
    Reassociated test test' → ReassociatedCase (.clause (.case body test)) (.clause (.case body test'))

end Value

namespace Context

variable (c : Context)

/-- What stands in the label of an alternative: what the subject is compared with, if the alternative
is a comparison of the subject for equality, or else the alternative as it is. -/
def labelValue (subject : Value) : Value → Value
  | .expr (.binary left operator right) =>
    if (operator.isText "identity_equality" || operator.isText "value_equality") &&
        c.program.same left subject then right
    else .expr (.binary left operator right)
  | v => v

/-- One label for each alternative. -/
def labels (subject test : Value) : List Script :=
  test.alternatives.map fun alternative => caseLabel (c.exprSlot (c.labelValue subject alternative))

/-- The labels of a case are those of the alternatives of its condition, one after the other. -/
theorem caseLabels_sameSteps (subject test : Value) :
    SameSteps (c.caseLabels subject (c.exprSlot test) test) (concat (c.labels subject test)) := by
  have hone {test : Value} (h : test.alternatives = [test])
      (hlabel : c.caseLabels subject (c.exprSlot test) test =
        caseLabel (c.exprSlot (c.labelValue subject test))) :
      SameSteps (c.caseLabels subject (c.exprSlot test) test) (concat (c.labels subject test)) := by
    rw [labels, h, hlabel]
    exact (SameSteps.append_empty _).symm
  induction test using Value.alternatives.induct with
  | case1 left operator right ho ihleft ihright =>
    have hboth : SameSteps (c.caseLabels subject (c.exprSlot (.expr (.binary left operator right)))
        (.expr (.binary left operator right)))
        (concat (c.labels subject left) ++ concat (c.labels subject right)) := by
      rw [caseLabels, if_pos ho]
      exact SameSteps.congruence.append ihleft ihright
    rw [labels, Value.alternatives, if_pos ho, List.map_append]
    exact hboth.trans (SameSteps.concat_append _ _).symm
  | case2 left operator right ho =>
    refine hone (by rw [Value.alternatives, if_neg ho]) ?_
    rw [caseLabels, if_neg ho, comparesSubject, labelValue]
    split_ifs <;> rfl
  | case3 v h =>
    have hlabel : c.labelValue subject v = v := by
      unfold labelValue
      split
      · exact absurd rfl (h _ _ _)
      · rfl
    refine hone ?_ ?_
    · unfold Value.alternatives
      split
      · exact absurd rfl (h _ _ _)
      · rfl
    · rw [hlabel]
      unfold caseLabels
      split
      · exact absurd rfl (h _ _ _)
      · rfl

/-- The alternatives of a condition that does not fault do not fault. -/
theorem fault_of_mem_alternatives {test : Value} (hf : (c.exprSlot test).fault = none) :
    ∀ alternative ∈ test.alternatives, (c.exprSlot alternative).fault = none := by
  induction test using Value.alternatives.induct with
  | case1 left operator right ho ihleft ihright =>
    obtain ⟨hleft, hright⟩ := Within.binary hf
    rw [Value.alternatives, if_pos ho, List.forall_mem_append]
    exact ⟨ihleft (hleft.fault hf), ihright (hright.fault hf)⟩
  | case2 left operator right ho =>
    rw [Value.alternatives, if_neg ho, List.forall_mem_singleton]
    exact hf
  | case3 v h =>
    unfold Value.alternatives
    split
    · exact absurd rfl (h _ _ _)
    · exact List.forall_mem_singleton.2 hf

theorem fault_labelValue {subject v : Value} (hf : (c.exprSlot v).fault = none) :
    (c.exprSlot (c.labelValue subject v)).fault = none := by
  unfold labelValue
  split
  · split_ifs
    · exact (Within.binary hf).2.fault hf
    · exact hf
  · exact hf

theorem fault_labels {subject test : Value} (hf : (c.exprSlot test).fault = none) :
    (concat (c.labels subject test)).fault = none := by
  rw [fault_concat, labels, List.forall_mem_map]
  intro alternative ha
  have hvalue : (c.exprSlot (c.labelValue subject alternative)).fault = none :=
    c.fault_labelValue (c.fault_of_mem_alternatives hf alternative ha)
  simp [caseLabel, hvalue]

/-- A label is a line of its own. -/
theorem written_caseLabel {v : Value} (hf : (caseLabel (c.exprSlot v)).fault = none) :
    (caseLabel (c.exprSlot v)).written =
      .text "case " :: (c.exprSlot v).written ++ [.text ":", .lineBreak] := by
  have hvalue : (c.exprSlot v).fault = none := by simpa [caseLabel] using hf
  obtain ⟨keeps, hruns⟩ := (c.exprSlot_neutral v).runs hvalue
  have hrun := (((runs_text "case " {}).append (hruns {} (by decide))).append
    (runs_text ":" _)).append (runs_lineBreak _)
  rw [written, outcome_tokens, caseLabel, hrun.tokens]
  simp

theorem labels_neutral (subject test : Value) : ∀ s ∈ c.labels subject test, Neutral s :=
  List.forall_mem_map.2 fun v _ => (caseLabel_inline (c.exprSlot_fits (c.labelValue subject v))).law

theorem written_labels {subject test : Value} (hf : (concat (c.labels subject test)).fault = none) :
    (concat (c.labels subject test)).written = test.alternatives.flatMap fun alternative =>
      .text "case " :: (c.exprSlot (c.labelValue subject alternative)).written ++
        [.text ":", .lineBreak] := by
  rw [Neutral.written_concat (c.labels_neutral subject test) hf, labels, List.flatMap_map]
  rw [fault_concat, labels, List.forall_mem_map] at hf
  exact List.flatMap_congr fun alternative ha => c.written_caseLabel (hf alternative ha)

/-- Cases that differ in nothing but the grouping of their alternatives have the same script. -/
theorem switchCase_sameSteps (subject : Value) {v w : Value} (h : v.ReassociatedCase w) :
    SameSteps (c.switchCase subject v) (c.switchCase subject w) := by
  cases h with
  | same => exact .refl _
  | @case body test test' h =>
    have hlabels : c.labels subject test = c.labels subject test' := by
      rw [labels, labels, h.alternatives_eq]
    refine SameSteps.congruence.before ?_ _
    exact ((c.caseLabels_sameSteps subject test).trans (hlabels ▸ .refl _)).trans
      (c.caseLabels_sameSteps subject test').symm

theorem switch_sameSteps (subject : Value) {cases cases' : List Value}
    (h : List.Forall₂ Value.ReassociatedCase cases cases') :
    SameSteps (c.stmtSlot (.stmt (.switch subject (.list cases))))
      (c.stmtSlot (.stmt (.switch subject (.list cases')))) := by
  have hr := SameSteps.congruence
  have hcases : List.Forall₂ SameSteps (c.switchCases subject cases) (c.switchCases subject cases') := by
    rw [switchCases_eq, switchCases_eq, List.forall₂_map_left_iff, List.forall₂_map_right_iff]
    exact h.imp fun _ _ => c.switchCase_sameSteps subject
  exact hr.delayed (hr.before (hr.before (hr.after _ (hr.concat hcases)) _) _)

/-- **Labels of a switch.** A case whose condition or whose labels do not fault has one label for each
alternative of the condition, from left to right, on whatever layout it stands: what the subject is
compared with, or else the alternative itself. So a switch is rendered in just the same way, be it to
its end or to a fault, if the alternatives of its conditions are grouped in another way. -/
theorem switch_labels (subject : Value) :
    (∀ test, (c.exprSlot test).fault = none →
      (c.caseLabels subject (c.exprSlot test) test).fault = none) ∧
    (∀ test, (c.caseLabels subject (c.exprSlot test) test).fault = none →
      ∀ l : Layout, 0 ≤ l.depth → (c.caseLabels subject (c.exprSlot test) test).tokens l =
        test.alternatives.flatMap fun alternative =>
          .text "case " :: (c.exprSlot (c.labelValue subject alternative)).written ++
            [.text ":", .lineBreak]) ∧
    ∀ cases cases', List.Forall₂ Value.ReassociatedCase cases cases' →
      (∀ l, (c.stmtSlot (.stmt (.switch subject (.list cases)))).run l =
        (c.stmtSlot (.stmt (.switch subject (.list cases')))).run l) ∧
      (c.render (.stmt (.switch subject (.list cases)))).outcome =
        (c.render (.stmt (.switch subject (.list cases')))).outcome := by
  refine ⟨fun test hf => ?_, fun test hf l hl => ?_, fun cases cases' h => ⟨fun l => ?_, ?_⟩⟩
  · rw [(c.caseLabels_sameSteps subject test).fault]
    exact c.fault_labels hf
  · have hlabels := c.caseLabels_sameSteps subject test
    rw [hlabels.fault] at hf
    obtain ⟨keeps, hruns⟩ := (Neutral.concat (c.labels_neutral subject test)).runs hf
    rw [hlabels.tokens, (hruns l hl).tokens, c.written_labels hf]
  · exact (c.switch_sameSteps subject h).run l
  · have hr := SameSteps.congruence
    exact (hr.before (hr.after (step .openBody) (c.switch_sameSteps subject h)) _).run {}

/-- Three alternatives, of which two compare the subject with a number. -/
theorem switch_labels_three :
    let c : Context := { program := { locals := #[{ name := .ofText "x" }] } }
    let x : Value := .expr (.variable (.entity ⟨.variable, 0⟩))
    let number (n : Int) : Value := .expr (.literal (.scalar (.int n)) .null)
    let equals (n : Int) : Value := .expr (.binary x (.ofText "value_equality") (number n))
    let test := ((equals 1).either (equals 2)).either x
    let test' := (equals 1).either ((equals 2).either x)
    (c.exprSlot test).fault = none ∧ (c.caseLabels x (c.exprSlot test) test).tokens {} =
        [.text "case ", .text "1", .text ":", .lineBreak, .text "case ", .text "2", .text ":",
          .lineBreak, .text "case "] ++ (c.exprSlot x).written ++ [.text ":", .lineBreak] ∧
      test.Reassociated test' ∧ ∀ body,
        (c.render (.stmt (.switch x (.list [.clause (.case body test)])))).outcome =
          (c.render (.stmt (.switch x (.list [.clause (.case body test')])))).outcome := by
  intro c x number equals test test'
  have hf : (c.exprSlot test).fault = none := by decide +kernel
  have hsubject : c.program.same x x = true := by decide +kernel
  have hvalue (n : Int) : c.labelValue x (equals n) = number n := by
    rw [labelValue, hsubject]
    rfl
  have hother : c.labelValue x x = x := rfl
  have hone : (c.exprSlot (number 1)).written = [.text "1"] := by decide +kernel
  have htwo : (c.exprSlot (number 2)).written = [.text "2"] := by decide +kernel
  obtain ⟨hfault, htokens, hgroups⟩ := c.switch_labels x
  have hrotate : test.Reassociated test' := .rotate ..
  refine ⟨hf, ?_, hrotate, fun body => (hgroups _ _ (.cons (.case body hrotate) .nil)).2⟩
  have halternatives : test.alternatives = [equals 1, equals 2, x] := rfl
  rw [htokens test (hfault test hf) {} (by decide), halternatives]
  simp [hvalue, hother, hone, htwo]

end Context

end Scribe
