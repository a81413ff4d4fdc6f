import Scribe.Render.Shape

/-!
# What a script does to a layout

`Script.after` and `Script.events`: the layout that a run leaves and what it leaves behind, as two
functions of the layout it starts on. Both go through `++` from left to right; a script that faults
keeps what follows it from running. `Script.tokens` are the tokens among the events.
-/

namespace Scribe

/-! ### Separators -/

namespace Layout

@[simp] theorem separator_fst (l : Layout) :
    l.separator.1 = { l with firstStatement := false, needsTerminator := false } := by
  obtain ⟨depth, forHeader, firstStatement, needsTerminator, suspended⟩ := l
  cases firstStatement <;> cases forHeader <;> rfl

theorem separator_snd (l : Layout) :
    l.separator.2 = if l.firstStatement then [] else if l.forHeader then [.text ", "]
      else if l.needsTerminator then [.text ";", .lineBreak] else [.lineBreak] := by
  unfold separator
  split
  · rfl
  · split <;> rfl

/-- A body that closes writes what a further statement would. -/
@[simp] theorem closeBody_snd (l : Layout) : l.closeBody.2 = l.separator.2 := by
  unfold closeBody
  split
  · next h => simp [separator_snd, h]
  · rfl

@[simp] theorem closeBody_fst (l : Layout) :
    l.closeBody.1 = { l with firstStatement := false,
                             needsTerminator := l.firstStatement && l.needsTerminator } := by
  unfold closeBody
  split
  · next h => simp [h]
  · next h => simp [h]

theorem label_snd (l : Layout) (name : Scalar) :
    (l.label name).2 = if 0 < l.depth
      then [.outdent, .declaration (name.mapText Identifier.declared) none, .text ":", .lineBreak,
        .indent]
      else [.declaration (name.mapText Identifier.declared) none, .text ":", .lineBreak] := rfl

end Layout

/-! ### What is taken from the tokens -/

/-- Tokens of the kinds that separators and labels write. -/
def Token.isPlaced : Token → Bool
  | .text _ | .lineBreak | .indent | .outdent | .declaration _ none => true
  | _ => false

namespace Step

/-- The token that a step is there to write. -/
def token? : Step → Option Token
  | .token t => some t
  | _ => none

variable {α : Type} {f : Token → Option α} (hf : ∀ t : Token, t.isPlaced = true → f t = none)

include hf

theorem filterMap_apply (l : Layout) (s : Step) :
    ((s.apply l).2.filterMap Event.token?).filterMap f = (s.token?.bind f).toList := by
  have htokens (ts : List Token) : (ts.map Event.token).filterMap Event.token? = ts := by
    rw [List.filterMap_map]
    exact List.filterMap_some
  have hplaced {ts : List Token} (h : ∀ t ∈ ts, t.isPlaced = true) :
      ((ts.map Event.token).filterMap Event.token?).filterMap f = [] := by
    rw [htokens, List.filterMap_eq_nil_iff]
    exact fun t ht => hf t (h t ht)
  have hseparator : ∀ t ∈ l.separator.2, t.isPlaced = true := by
    rw [Layout.separator_snd]
    split
    · simp
    · split
      · simp [Token.isPlaced]
      · split <;> simp [Token.isPlaced]
  cases s with
  | token t =>
    show [t].filterMap f = (f t).toList
    cases h : f t <;> simp [h]
  | log | openBody | terminate | header | enter | leave => rfl
  | closeBody =>
    rw [apply, Layout.closeBody_snd]
    exact hplaced hseparator
  | separator => exact hplaced hseparator
  | finish =>
    refine hplaced ?_
    rw [Layout.finish]
    dsimp only
    split <;> simp [Token.isPlaced]
  | label name =>
    refine hplaced ?_
    rw [Layout.label_snd]
    split <;> simp [Token.isPlaced]

theorem filterMap_runAll (l : Layout) (steps : List Step) :
    ((runAll l steps).2.filterMap Event.token?).filterMap f =
      steps.filterMap fun s => s.token?.bind f := by
  induction steps generalizing l with
  | nil => rfl
  | cons s steps ih =>
    simp only [runAll, List.filterMap_append, filterMap_apply hf, ih]
    cases h : s.token?.bind f <;> simp [h]

end Step

/-! ### Runs -/

namespace Script

variable {a b : Script} {f : Fault}

/-- The layout after a run. -/
def after (s : Script) (l : Layout) : Layout := (Step.runAll l s.steps).1

/-- What a run leaves behind, but for the notice of its fault. -/
def events (s : Script) (l : Layout) : List Event := (Step.runAll l s.steps).2

/-- The tokens that a run writes. -/
def tokens (s : Script) (l : Layout) : List Token := (s.events l).filterMap Event.token?

@[simp] theorem token?_comp_token : Event.token? ∘ Event.token = some := rfl

theorem filterMap_token (ts : List Token) : (ts.map Event.token).filterMap Event.token? = ts := by
  rw [List.filterMap_map, token?_comp_token, List.filterMap_some]

theorem filterMap_notice (f : Option Fault) : (notice f).filterMap Event.token? = [] := by
  unfold notice
  split
  · split <;> rfl
  · rfl

theorem run_events (s : Script) (l : Layout) : (s.run l).events = s.events l ++ notice s.fault := by
  rw [run_eq, events]

theorem run_tokens (s : Script) (l : Layout) : (s.run l).tokens = s.tokens l := by
  rw [Outcome.tokens, run_events, List.filterMap_append, filterMap_notice, List.append_nil, tokens]

@[simp] theorem run_fault (s : Script) (l : Layout) : (s.run l).fault = s.fault := by rw [run_eq]

/-- The tokens of a script that is run on its own. -/
def written (s : Script) : List Token := s.outcome.tokens

theorem outcome_tokens (s : Script) : s.outcome.tokens = s.tokens {} := run_tokens s {}

@[simp] theorem outcome_fault (s : Script) : s.outcome.fault = s.fault := run_fault s {}

theorem fault_append_eq_none : (a ++ b).fault = none ↔ a.fault = none ∧ b.fault = none := by
  simp [Option.or_eq_none_iff]

theorem fault_concat {l : List Script} : (concat l).fault = none ↔ ∀ s ∈ l, s.fault = none := by
  induction l with
  | nil => simp [concat]
  | cons s l ih => rw [List.forall_mem_cons, ← ih, concat, List.foldr_cons, fault_append_eq_none, concat]

theorem fault_commaSeparated {l : List Script} :
    (commaSeparated l).fault = none ↔ ∀ s ∈ l, s.fault = none := by
  unfold commaSeparated
  induction l with
  | nil => simp [joined]
  | cons s l ih =>
    cases l with
    | nil => simp [joined]
    | cons t l =>
      rw [List.forall_mem_cons, ← ih, joined.eq_3 _ _ _ (List.cons_ne_nil t l), fault_append_eq_none,
        fault_append_eq_none]
      exact and_congr_left fun _ => and_iff_left rfl

theorem fault_blockItems {index : Nat} {l : List Script} :
    (blockItems index l).fault = none ↔ ∀ s ∈ l, s.fault = none := by
  induction l generalizing index with
  | nil => simp [blockItems]
  | cons s l ih =>
    rw [List.forall_mem_cons, ← ih, blockItems, fault_append_eq_none, fault_append_eq_none]
    refine and_congr_left fun _ => and_iff_right ?_
    split
    · rfl
    · split <;> rfl

/-- What is given and does not fault is there. -/
theorem given_eq {α : Type} {r : Except Fault α} {next : α → Script}
    (h : (given r next).fault = none) : ∃ x, r = .ok x ∧ given r next = next x := by
  cases r with
  | ok x => exact ⟨x, rfl, rfl⟩
  | error f => cases h

/-- A name with a description beside it is one reference. -/
theorem described_eq {r : Except Fault String} {name : Value} {target : Target}
    (h : (given r fun tooltip => reference name tooltip target).fault = none) :
    ∃ n t, (given r fun tooltip => reference name tooltip target) =
      token (.reference n t (some target)) := by
  obtain ⟨tooltip, -, ht⟩ := given_eq h
  rw [ht] at h ⊢
  obtain ⟨n, -, hn⟩ := given_eq h
  exact ⟨_, _, hn⟩

theorem after_append (h : a.fault = none) (b : Script) (l : Layout) :
    (a ++ b).after l = b.after (a.after l) := by
  rw [after, steps_append_of_none h, Step.runAll_append, after, after]

theorem events_append (h : a.fault = none) (b : Script) (l : Layout) :
    (a ++ b).events l = a.events l ++ b.events (a.after l) := by
  rw [events, steps_append_of_none h, Step.runAll_append, events, events, after]

theorem events_append_of_some (h : a.fault = some f) (b : Script) (l : Layout) :
    (a ++ b).events l = a.events l := by
  rw [events, steps_append_of_some h, events]

theorem tokens_append (h : a.fault = none) (b : Script) (l : Layout) :
    (a ++ b).tokens l = a.tokens l ++ b.tokens (a.after l) := by
  rw [tokens, events_append h, List.filterMap_append, tokens, tokens]

theorem tokens_append_of_some (h : a.fault = some f) (b : Script) (l : Layout) :
    (a ++ b).tokens l = a.tokens l := by
  rw [tokens, events_append_of_some h, tokens]

/-- What a script writes stays, whatever follows it. -/
theorem tokens_stay (a b : Script) (l : Layout) : a.tokens l <+: (a ++ b).tokens l := by
  cases hf : a.fault with
  | none => exact ⟨_, (tokens_append hf b l).symm⟩
  | some f => exact ⟨[], by rw [tokens_append_of_some hf, List.append_nil]⟩

/-- What is taken from the tokens of a run is what is taken from the steps, on whatever layout, if it is
nothing for separators and labels. -/
theorem filterMap_tokens {α : Type} {f : Token → Option α}
    (hf : ∀ t : Token, t.isPlaced = true → f t = none) (s : Script) (l : Layout) :
    (s.tokens l).filterMap f = s.steps.filterMap fun step => step.token?.bind f :=
  Step.filterMap_runAll hf l s.steps

/-- A run from `l` to `m` that writes `ts` and does not fault. -/
structure Runs (s : Script) (l : Layout) (ts : List Token) (m : Layout) : Prop where
  fault : s.fault = none
  tokens : s.tokens l = ts
  after : s.after l = m

theorem Runs.append {l m n : Layout} {ts us : List Token} (ha : Runs a l ts m)
    (hb : Runs b m us n) : Runs (a ++ b) l (ts ++ us) n := by
  refine ⟨fault_append_eq_none.2 ⟨ha.fault, hb.fault⟩, ?_, ?_⟩
  · rw [tokens_append ha.fault, ha.tokens, ha.after, hb.tokens]
  · rw [after_append ha.fault, ha.after, hb.after]

@[simp] theorem after_empty (l : Layout) : (∅ : Script).after l = l := rfl
@[simp] theorem events_empty (l : Layout) : (∅ : Script).events l = [] := rfl
@[simp] theorem tokens_empty (l : Layout) : (∅ : Script).tokens l = [] := rfl
@[simp] theorem after_fail (f : Fault) (l : Layout) : (fail f).after l = l := rfl
@[simp] theorem events_fail (f : Fault) (l : Layout) : (fail f).events l = [] := rfl

@[simp] theorem after_step (s : Step) (l : Layout) : (step s).after l = (s.apply l).1 := rfl

@[simp] theorem events_step (s : Step) (l : Layout) : (step s).events l = (s.apply l).2 := by
  simp [events, Step.runAll]

@[simp] theorem tokens_step (s : Step) (l : Layout) :
    (step s).tokens l = (s.apply l).2.filterMap Event.token? := by
  rw [tokens, events_step]

@[simp] theorem after_delayed (part : Unit → Script) (l : Layout) :
    (delayed part).after l = (part ()).after l := rfl

@[simp] theorem events_delayed (part : Unit → Script) (l : Layout) :
    (delayed part).events l = (part ()).events l := rfl

@[simp] theorem tokens_delayed (part : Unit → Script) (l : Layout) :
    (delayed part).tokens l = (part ()).tokens l := rfl

@[simp] theorem fault_token (t : Token) : (token t).fault = none := rfl
@[simp] theorem after_token (t : Token) (l : Layout) : (token t).after l = l.move t := rfl
@[simp] theorem events_token (t : Token) (l : Layout) : (token t).events l = [.token t] := rfl
@[simp] theorem tokens_token (t : Token) (l : Layout) : (token t).tokens l = [t] := rfl

@[simp] theorem fault_text (s : String) : (text s).fault = none := rfl
@[simp] theorem after_text (s : String) (l : Layout) : (text s).after l = l := rfl
@[simp] theorem tokens_text (s : String) (l : Layout) : (text s).tokens l = [.text s] := rfl
@[simp] theorem fault_lineBreak : lineBreak.fault = none := rfl
@[simp] theorem after_lineBreak (l : Layout) : lineBreak.after l = l := rfl
@[simp] theorem tokens_lineBreak (l : Layout) : lineBreak.tokens l = [.lineBreak] := rfl

theorem runs_text (s : String) (l : Layout) : Runs (text s) l [.text s] l := ⟨rfl, rfl, rfl⟩

theorem runs_token (t : Token) (l : Layout) : Runs (token t) l [t] (l.move t) := ⟨rfl, rfl, rfl⟩

theorem runs_lineBreak (l : Layout) : Runs lineBreak l [.lineBreak] l := ⟨rfl, rfl, rfl⟩

/-! Parts in a row: what is kept by one script after another is kept by many. -/

/-- Properties that nothing has, and that one script after another has if both have it. -/
structure Sequential (P : Script → Prop) : Prop where
  empty : P ∅
  append : ∀ {a b : Script}, P a → P b → P (a ++ b)

namespace Sequential

variable {P : Script → Prop} {l : List Script} (hp : Sequential P)

include hp

theorem concat (h : ∀ s ∈ l, P s) : P (concat l) := by
  induction l with
  | nil => exact hp.empty
  | cons s l ih =>
    exact hp.append (h s (List.mem_cons_self ..)) (ih fun t ht => h t (List.mem_cons_of_mem _ ht))

theorem commaSeparated (hcomma : P (text ", ")) (h : ∀ s ∈ l, P s) : P (commaSeparated l) := by
  unfold Script.commaSeparated
  induction l with
  | nil => exact hp.empty
  | cons s l ih =>
    have hs := h s (List.mem_cons_self ..)
    have hl := ih fun t ht => h t (List.mem_cons_of_mem _ ht)
    cases l with
    | nil => exact hs
    | cons t l => exact hp.append (hp.append hs hcomma) hl

theorem blockItems (hcomma : P (text ", ")) (hcut : P (text "," ++ lineBreak)) (index : Nat)
    (h : ∀ s ∈ l, P s) : P (blockItems index l) := by
  induction l generalizing index with
  | nil => exact hp.empty
  | cons s l ih =>
    have hs := h s (List.mem_cons_self ..)
    have hl := ih (index + 1) fun t ht => h t (List.mem_cons_of_mem _ ht)
    refine hp.append (hp.append ?_ hs) hl
    split
    · exact hp.empty
    · split
      · exact hcut
      · exact hcomma

end Sequential

/-! One level in: a fault keeps the margin from being taken back. -/

@[simp] theorem fault_indented (s : Script) : (indented s).fault = s.fault := by
  simp [indented]

theorem after_indented {s : Script} (h : s.fault = none) (l : Layout) :
    (indented s).after l = (s.after (l.move .indent)).move .outdent := by
  rw [indented, after_append (by simpa using h), after_append (by rfl), after_token, after_token]

theorem events_indented (s : Script) (l : Layout) :
    (indented s).events l = .token .indent :: s.events (l.move .indent) ++
      if s.fault = none then [.token .outdent] else [] := by
  have hi : (token .indent ++ s).events l = .token .indent :: s.events (l.move .indent) := by
    rw [events_append (by rfl), events_token, after_token]
    rfl
  cases h : s.fault with
  | none =>
    rw [indented, events_append (by simpa using h), hi, events_token]
    simp
  | some f =>
    have hf : (token .indent ++ s).fault = some f := by simpa using h
    rw [indented, events_append_of_some hf, hi]
    simp

theorem tokens_indented {s : Script} (h : s.fault = none) (l : Layout) :
    (indented s).tokens l = .indent :: s.tokens (l.move .indent) ++ [.outdent] := by
  rw [tokens, events_indented, if_pos h]
  simp [tokens, Event.token?]

/-! Bodies: what follows the last statement is what would stand before a further one. -/

@[simp] theorem fault_body (s : Script) : (body s).fault = s.fault := by
  simp [body]

theorem after_body {s : Script} (h : s.fault = none) (l : Layout) :
    (body s).after l = (s.after { l with firstStatement := true }).closeBody.1 := by
  rw [body, after_append (by simpa using h), after_append (by rfl), after_step, after_step]
  rfl

theorem events_body (s : Script) (l : Layout) :
    (body s).events l = s.events { l with firstStatement := true } ++
      if s.fault = none
        then (s.after { l with firstStatement := true }).separator.2.map .token else [] := by
  have ho : (step .openBody ++ s).events l = s.events { l with firstStatement := true } := by
    rw [events_append (by rfl)]
    rfl
  cases h : s.fault with
  | none =>
    rw [body, events_append (by simpa using h), ho, after_append (by rfl), events_step]
    simp [Step.apply]
  | some f =>
    have hf : (step .openBody ++ s).fault = some f := by simpa using h
    rw [body, events_append_of_some hf, ho]
    simp

theorem tokens_body {s : Script} (h : s.fault = none) (l : Layout) :
    (body s).tokens l = s.tokens { l with firstStatement := true } ++
      (s.after { l with firstStatement := true }).separator.2 := by
  rw [tokens, events_body, if_pos h, List.filterMap_append, filterMap_token, tokens]

end Script

end Scribe
