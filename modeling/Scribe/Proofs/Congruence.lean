import Mathlib.Data.List.Forall2
import Mathlib.Data.Option.Basic
import Mathlib.Tactic.Common
import Scribe.Render.Container

/-!
# Relations that rendering respects

`Script.Congruence R`: the relation `R` of scripts holds of scripts that are put together in the same
way from related parts. Every shape of the rendered code then respects `R`.
-/

namespace Scribe

namespace Script

structure Congruence (R : Script → Script → Prop) : Prop where
  empty : R ∅ ∅
  step (s : Step) : R (step s) (step s)
  fail (f : Fault) : R (fail f) (fail f)
  append {a a' b b' : Script} : R a a' → R b b' → R (a ++ b) (a' ++ b')
  delayed {part part' : Unit → Script} : R (part ()) (part' ()) → R (delayed part) (delayed part')

theorem related_ite {R : Script → Script → Prop} {p : Prop} [Decidable p] {a a' b b' : Script}
    (ha : R a a') (hb : R b b') : R (if p then a else b) (if p then a' else b') := by
  split_ifs
  · exact ha
  · exact hb

/-- The items of a list, written in two ways. -/
theorem related_map {α β : Type} {R : β → β → Prop} {f f' : α → β} {items : List α}
    (h : ∀ a ∈ items, R (f a) (f' a)) : List.Forall₂ R (items.map f) (items.map f') := by
  rw [List.forall₂_map_left_iff, List.forall₂_map_right_iff, List.forall₂_same]
  exact h

namespace Congruence

variable {R : Script → Script → Prop} (hr : Congruence R) {a a' b b' : Script}
  {l l' : List Script}

include hr

theorem refl (s : Script) : R s s := by
  induction s with
  | empty => exact hr.empty
  | step s => exact hr.step s
  | fail f => exact hr.fail f
  | append a b ha hb => exact hr.append ha hb
  | delayed part h => exact hr.delayed (h ())

theorem of_eq (h : a = a') : R a a' := h ▸ hr.refl a

/-- A related script after the same one. -/
theorem after (s : Script) (h : R a a') : R (s ++ a) (s ++ a') := hr.append (hr.refl s) h

/-- A related script before the same one. -/
theorem before (h : R a a') (s : Script) : R (a ++ s) (a' ++ s) := hr.append h (hr.refl s)

theorem between (opening closing : String) (h : R a a') :
    R (between opening closing a) (between opening closing a') :=
  hr.before (hr.after _ h) _

theorem parenthesized (h : R a a') : R (parenthesized a) (parenthesized a') := hr.between _ _ h

theorem bracketed (h : R a a') : R (bracketed a) (bracketed a') := hr.between _ _ h

theorem indented (h : R a a') : R (indented a) (indented a') := hr.before (hr.after _ h) _

theorem body (h : R a a') : R (body a) (body a') := hr.before (hr.after _ h) _

theorem braced (h : R a a') : R (braced a) (braced a') :=
  hr.before (hr.before (hr.after _ (hr.indented (hr.body h))) _) _

theorem simple (h : R a a') : R (simple a) (simple a') := hr.before (hr.after _ h) _

theorem caseLabel (h : R a a') : R (caseLabel a) (caseLabel a') :=
  hr.before (hr.before (hr.after _ h) _) _

theorem concat (h : List.Forall₂ R l l') : R (concat l) (concat l') := by
  induction h with
  | nil => exact hr.empty
  | cons h _ ih => exact hr.append h ih

theorem commaSeparated (h : List.Forall₂ R l l') : R (commaSeparated l) (commaSeparated l') := by
  unfold Script.commaSeparated
  induction h with
  | nil => exact hr.empty
  | cons h hs ih =>
    cases hs with
    | nil => exact h
    | cons h' hs => exact hr.append (hr.before h _) ih

theorem blockItems (index : Nat) (h : List.Forall₂ R l l') :
    R (blockItems index l) (blockItems index l') := by
  induction h generalizing index with
  | nil => exact hr.empty
  | cons h _ ih => exact hr.append (hr.after _ h) (ih (index + 1))

theorem block (h : List.Forall₂ R l l') : R (block l) (block l') := by
  have hitems := hr.blockItems 0 h
  unfold Script.block
  rw [h.length_eq]
  split_ifs
  · exact hr.before (hr.before (hr.before (hr.after _ hitems) _) _) _
  · exact hr.before (hr.after _ hitems) _

theorem given_ok {α : Type} {r : Except Fault α} {next next' : α → Script}
    (h : ∀ x, r = .ok x → R (next x) (next' x)) : R (given r next) (given r next') := by
  cases r with
  | ok x => exact h x rfl
  | error f => exact hr.fail f

theorem given {α : Type} (r : Except Fault α) {next next' : α → Script}
    (h : ∀ x, R (next x) (next' x)) : R (given r next) (given r next') :=
  hr.given_ok fun x _ => h x

theorem optionally (v : Value) (h : R a a') : R (v.optionally a) (v.optionally a') :=
  related_ite hr.empty h

theorem unary (operator : Value) (h : R a a') : R (unary operator a) (unary operator a') := by
  unfold Script.unary
  split
  · exact hr.after _ h
  · exact hr.before h _
  · exact hr.fail _

theorem binary (operator : Value) (ha : R a a') (hb : R b b') :
    R (binary operator a b) (binary operator a' b') := by
  unfold Script.binary
  split
  · exact hr.parenthesized (hr.append (hr.before ha _) hb)
  · exact hr.fail _

/-! Groups of members -/

theorem lines (h : List.Forall₂ R l l') : R (lines l) (lines l') := by
  refine hr.concat ?_
  rw [List.forall₂_map_left_iff, List.forall₂_map_right_iff]
  exact h.imp fun _ _ => hr.after lineBreak

theorem group (title : String) {members : Value} {f f' : Value → Script}
    (h : ∀ vs, members.items = .ok vs → ∀ v ∈ vs, R (f v) (f' v)) :
    R (group title members f) (group title members f') :=
  related_ite (hr.after _ (hr.given_ok fun vs hvs => hr.lines (related_map (h vs hvs)))) hr.empty

theorem nestedGroup {members : Value} {f f' : Value → Script}
    (h : ∀ vs, members.items = .ok vs → ∀ v ∈ vs, R (f v) (f' v)) :
    R (nestedGroup members f) (nestedGroup members f') := by
  refine related_ite (hr.after _ (hr.indented ?_)) hr.empty
  exact hr.given_ok fun vs hvs => hr.lines (related_map (h vs hvs))

end Congruence

end Script

end Scribe
