import Scribe.Proofs.Completes
import Scribe.Proofs.Matched
import Scribe.Proofs.Spelling

/-!
# What a render shows

A token leads somewhere and may have a description beside it, and neither is part of the text. Two
renders can show the same but for some pieces: `Script.Pieced V`, for two scripts that, if both complete,
take steps that are shown alike, but for pieces of tokens that `V` relates. That is a congruence, and
what the two runs write comes in such pieces too (`Script.Pieced.tokens`).
-/

namespace Scribe

/-- What a token shows, without what it leads to. -/
def Token.shown : Token → Token
  | .declaration name _ => .declaration name none
  | .reference name _ _ => .reference name .null none
  | t => t

def Step.shown : Step → Step
  | .token t => .token t.shown
  | s => s

def Event.shown : Event → Event
  | .token t => .token t.shown
  | e => e

theorem Event.filterMap_shown (es : List Event) :
    (es.filterMap token?).map Token.shown = (es.map shown).filterMap token? := by
  rw [List.filterMap_map, List.map_filterMap]
  congr 1
  funext e
  cases e <;> rfl

namespace Token

theorem put_shown (m : Margin) (t : Token) : m.put t.shown = m.put t := by cases t <;> rfl

theorem layout_shown (m : Margin) (ts : List Token) : m.layout (ts.map shown) = m.layout ts := by
  induction ts generalizing m with
  | nil => rfl
  | cons t ts ih => rw [List.map_cons, Margin.layout_cons, Margin.layout_cons, put_shown, ih]

end Token

namespace Step

theorem move_shown (l : Layout) (t : Token) : l.move t.shown = l.move t := by cases t <;> rfl

theorem label_shown (l : Layout) (name : Scalar) :
    (l.label name).2.map Token.shown = (l.label name).2 := by
  unfold Layout.label
  dsimp only
  split_ifs <;> rfl

theorem separator_shown (l : Layout) : l.separator.2.map Token.shown = l.separator.2 := by
  unfold Layout.separator
  split_ifs <;> rfl

theorem closeBody_shown (l : Layout) : l.closeBody.2.map Token.shown = l.closeBody.2 := by
  unfold Layout.closeBody
  split_ifs
  · rfl
  · exact separator_shown l

theorem finish_shown (l : Layout) : l.finish.2.map Token.shown = l.finish.2 := by
  unfold Layout.finish
  dsimp only
  split_ifs <;> rfl

/-- Steps that are shown alike leave the same layout behind, and tokens that are shown alike. -/
theorem apply_shown (l : Layout) (s : Step) :
    s.shown.apply l = ((s.apply l).1, (s.apply l).2.map Event.shown) := by
  have htokens {ts : List Token} (h : ts.map Token.shown = ts) :
      ts.map Event.token = (ts.map Event.token).map Event.shown := by
    rw [List.map_map]
    nth_rewrite 1 [← h]
    rw [List.map_map]
    rfl
  cases s with
  | token t => simp [shown, apply, Event.shown, move_shown]
  | label name => exact Prod.ext rfl (htokens (label_shown l name))
  | separator => exact Prod.ext rfl (htokens (separator_shown l))
  | closeBody => exact Prod.ext rfl (htokens (closeBody_shown l))
  | finish => exact Prod.ext rfl (htokens (finish_shown l))
  | _ => rfl

end Step

/-! ### Pieces -/

/-- A relation of pieces that leave the margin where it is. -/
def Token.Still (V : List Token → List Token → Prop) : Prop :=
  ∀ ts us, V ts us → ∀ l : Layout, (∀ t ∈ ts, l.move t = l) ∧ ∀ u ∈ us, l.move u = l

/-- Tokens that come in pieces: two pieces that stand opposite each other are shown alike, unless `V`
relates them. -/
structure Token.InPieces (V : List Token → List Token → Prop) (ts us : List Token)
    (pieces : List (List Token × List Token)) : Prop where
  left : ts = pieces.flatMap (·.1)
  right : us = pieces.flatMap (·.2)
  opposite : ∀ q ∈ pieces, q.1.map Token.shown = q.2.map Token.shown ∨ V q.1 q.2

namespace Token.InPieces

variable {V : List Token → List Token → Prop} {ts us ts' us' : List Token}
  {pieces pieces' : List (List Token × List Token)}

theorem nil : InPieces V [] [] [] := ⟨rfl, rfl, fun _ h => nomatch h⟩

theorem one (h : ts.map shown = us.map shown ∨ V ts us) : InPieces V ts us [(ts, us)] :=
  ⟨by simp, by simp, by simpa using h⟩

theorem append (h : InPieces V ts us pieces) (h' : InPieces V ts' us' pieces') :
    InPieces V (ts ++ ts') (us ++ us') (pieces ++ pieces') := by
  refine ⟨?_, ?_, List.forall_mem_append.2 ⟨h.opposite, h'.opposite⟩⟩
  · rw [List.flatMap_append, h.left, h'.left]
  · rw [List.flatMap_append, h.right, h'.right]

/-- Where all pieces are shown alike, so is the whole. -/
theorem shown_eq (h : InPieces V ts us pieces)
    (hs : ∀ q ∈ pieces, q.1.map shown = q.2.map shown) : ts.map shown = us.map shown := by
  rw [h.left, h.right, List.map_flatMap, List.map_flatMap]
  exact List.flatMap_congr hs

end Token.InPieces

namespace Step

/-- Steps that are shown alike one by one, but for pieces of tokens that `V` relates. -/
inductive Pieced (V : List Token → List Token → Prop) : List Step → List Step → Prop
  | nil : Pieced V [] []
  | alike {s t : Step} {ss ts : List Step} : s.shown = t.shown → Pieced V ss ts →
    Pieced V (s :: ss) (t :: ts)
  | varied {x y : List Token} {ss ts : List Step} : V x y → Pieced V ss ts →
    Pieced V (x.map .token ++ ss) (y.map .token ++ ts)

variable {V : List Token → List Token → Prop} {ss ts ss' ts' : List Step}

theorem Pieced.of_shown (h : ss.map shown = ts.map shown) : Pieced V ss ts := by
  induction ss generalizing ts with
  | nil =>
    obtain rfl := List.map_eq_nil_iff.1 h.symm
    exact .nil
  | cons s ss ih =>
    obtain ⟨t, ts, rfl, ht, hts⟩ := List.map_eq_cons_iff.1 h.symm
    exact .alike ht.symm (ih hts.symm)

theorem Pieced.append (h : Pieced V ss ts) (h' : Pieced V ss' ts') :
    Pieced V (ss ++ ss') (ts ++ ts') := by
  induction h with
  | nil => exact h'
  | alike hs _ ih => exact .alike hs ih
  | varied hv _ ih =>
    rw [List.append_assoc, List.append_assoc]
    exact .varied hv ih

theorem runAll_tokens {x : List Token} {l : Layout} (h : ∀ t ∈ x, l.move t = l) :
    runAll l (x.map .token) = (l, x.map .token) := by
  induction x with
  | nil => rfl
  | cons t x ih =>
    rw [List.forall_mem_cons] at h
    simp [runAll, apply, h.1, ih h.2]

/-- The two runs stay on one layout, and write tokens in pieces. -/
theorem Pieced.runAll (hV : Token.Still V) (h : Pieced V ss ts) (l : Layout) :
    ∃ pieces, Token.InPieces V ((Step.runAll l ss).2.filterMap Event.token?)
      ((Step.runAll l ts).2.filterMap Event.token?) pieces := by
  induction h generalizing l with
  | nil => exact ⟨[], .nil⟩
  | @alike s t ss ts hs _ ih =>
    have happly := congrArg (apply l) hs
    rw [apply_shown, apply_shown, Prod.mk.injEq] at happly
    obtain ⟨hlayout, hevents⟩ := happly
    obtain ⟨pieces, hp⟩ := ih (s.apply l).1
    have hpiece : Token.InPieces V ((s.apply l).2.filterMap Event.token?)
        ((t.apply l).2.filterMap Event.token?) [_] :=
      .one (.inl (by rw [Event.filterMap_shown, Event.filterMap_shown, hevents]))
    have hright : (Step.runAll l (t :: ts)).2 =
        (t.apply l).2 ++ (Step.runAll (s.apply l).1 ts).2 := by rw [hlayout]; rfl
    have happend := hpiece.append hp
    rw [← List.filterMap_append, ← List.filterMap_append, ← hright] at happend
    exact ⟨_, happend⟩
  | @varied x y ss ts hv _ ih =>
    obtain ⟨hx, hy⟩ := hV x y hv l
    obtain ⟨pieces, hp⟩ := ih l
    have htokens (ts : List Token) : (ts.map Event.token).filterMap Event.token? = ts :=
      Script.filterMap_token ts
    refine ⟨(x, y) :: pieces, ?_⟩
    simp only [runAll_append, runAll_tokens hx, runAll_tokens hy, List.filterMap_append, htokens]
    exact (Token.InPieces.one (.inr hv)).append hp

end Step

namespace Script

variable {a b : Script}

/-- What has a plain text completes. -/
theorem completes_of_plainText {t : String} (h : a.plainText = .ok t) : a.Completes := by
  obtain ⟨hf, hw, -⟩ := plainText_eq_ok.1 h
  refine ⟨hf, ?_⟩
  rw [written, outcome_tokens, List.all_eq_true] at hw
  unfold tokens events at hw
  generalize ({} : Layout) = l at hw
  generalize a.steps = steps at hw ⊢
  induction steps generalizing l with
  | nil => exact List.forall_mem_nil _
  | cons s ss ih =>
    simp only [Step.runAll, List.filterMap_append, List.forall_mem_append] at hw
    refine List.forall_mem_cons.2 ⟨?_, ih _ hw.2⟩
    cases s with
    | token t => exact hw.1 t (by simp [Step.apply, Event.token?])
    | label name =>
      have hname := hw.1 (.declaration (name.mapText Identifier.declared) none) (by
        rw [Step.apply, filterMap_token, Layout.label_snd]
        split <;> simp)
      rwa [Token.isWritable, Step.isText_mapText] at hname
    | _ => rfl

/-- Two scripts that show the same but for pieces that `V` relates, if both complete. -/
def Pieced (V : List Token → List Token → Prop) (a b : Script) : Prop :=
  a.Completes → b.Completes → Step.Pieced V a.steps b.steps

namespace Pieced

variable {V : List Token → List Token → Prop}

theorem of_fault_left (h : a.fault ≠ none) : Pieced V a b := fun ha => absurd ha.1 h

theorem of_fault_right (h : b.fault ≠ none) : Pieced V a b := fun _ hb => absurd hb.1 h

theorem congruence : Congruence (Pieced V) where
  empty _ _ := .nil
  step _ _ _ := .alike rfl .nil
  fail _ := of_fault_left (by simp)
  append {a a' b b'} h h' := by
    intro hw hw'
    obtain ⟨ha, hb⟩ := completes_append.1 hw
    obtain ⟨ha', hb'⟩ := completes_append.1 hw'
    rw [steps_append_of_none ha.1, steps_append_of_none ha'.1]
    exact (h ha ha').append (h' hb hb')
  delayed h := h

/-- The tokens of the two renders come in pieces. -/
theorem tokens (hV : Token.Still V) (h : Pieced V a b) (ha : a.Completes) (hb : b.Completes) :
    ∃ pieces, Token.InPieces V a.outcome.tokens b.outcome.tokens pieces := by
  rw [outcome_tokens, outcome_tokens]
  exact (h ha hb).runAll hV {}

end Pieced

/-- A script that writes tokens in the line, and does nothing else. -/
def InLine (s : Script) : Prop :=
  ∃ ts : List Token, s.steps = ts.map .token ∧ ∀ t ∈ ts, ∀ l : Layout, l.move t = l

namespace InLine

theorem empty : InLine ∅ := ⟨[], rfl, fun _ h => nomatch h⟩

theorem fail (f : Fault) : InLine (fail f) := ⟨[], rfl, fun _ h => nomatch h⟩

theorem token {t : Token} (h : ∀ l : Layout, l.move t = l) : InLine (token t) :=
  ⟨[t], rfl, by simpa using h⟩

theorem text (s : String) : InLine (text s) := .token fun _ => rfl

theorem append (ha : InLine a) (hb : InLine b) : InLine (a ++ b) := by
  obtain ⟨ts, hts, hs⟩ := ha
  obtain ⟨us, hus, hs'⟩ := hb
  rw [InLine, steps_append, hts, hus]
  split_ifs
  · exact ⟨ts, rfl, hs⟩
  · exact ⟨ts ++ us, by simp, List.forall_mem_append.2 ⟨hs, hs'⟩⟩

theorem given {α : Type} {r : Except Fault α} {next : α → Script} (h : ∀ x, InLine (next x)) :
    InLine (given r next) := by
  cases r with
  | ok x => exact h x
  | error f => exact .fail f

theorem reference (name : Value) (tooltip : String) (target : Target) :
    InLine (reference name tooltip target) := .given fun _ => .token fun _ => rfl

/-- The tokens of the render are the steps of the script. -/
theorem tokens (h : InLine a) : a.steps = a.outcome.tokens.map .token ∧
    ∀ t ∈ a.outcome.tokens, ∀ l : Layout, l.move t = l := by
  obtain ⟨ts, hts, hs⟩ := h
  have htokens : a.outcome.tokens = ts := by
    rw [outcome_tokens, Script.tokens, events, hts, Step.runAll_tokens fun t ht => hs t ht _]
    exact filterMap_token ts
  rw [htokens]
  exact ⟨hts, hs⟩

end InLine

/-- Tokens that are shown alike have one text. -/
theorem eq_of_tokens_shown {s t : String} (ha : a.plainText = .ok s) (hb : b.plainText = .ok t)
    (h : a.outcome.tokens.map Token.shown = b.outcome.tokens.map Token.shown) : s = t := by
  obtain ⟨-, -, rfl⟩ := plainText_eq_ok.1 ha
  obtain ⟨-, -, rfl⟩ := plainText_eq_ok.1 hb
  have htext (ts : List Token) : Token.plainText ts = Token.plainText (ts.map Token.shown) := by
    rw [Token.plainText, Token.plainText, Token.layout_shown]
  rw [htext, htext b.written]
  exact congrArg Token.plainText h

/-- Whether a script shows the one token that is given, if it completes. -/
def Shows (s : Script) (t : Option Token) : Prop :=
  s.Completes → ∃ u, t = some u ∧ s.steps.map Step.shown = [.token u]

/-- A name as it is shown where it is used. -/
def shownReference (name : Option String) : Option Token :=
  name.map fun name => .reference (.text (Identifier.referenced name)) .null none

/-- A name as it is shown where it is declared. -/
def shownDeclaration (name : Option String) : Option Token :=
  name.map fun name => .declaration (.text (Identifier.declared name)) none

namespace Shows

variable {V : List Token → List Token → Prop} {t : Option Token}

theorem pieced (ha : Shows a t) (hb : Shows b t) : Pieced V a b := by
  intro hwa hwb
  obtain ⟨u, rfl, hu⟩ := ha hwa
  obtain ⟨u', he, hu'⟩ := hb hwb
  cases he
  exact .of_shown (hu.trans hu'.symm)

theorem fail (f : Fault) : Shows (fail f) t := fun h => nomatch h.1

theorem given {α : Type} {r : Except Fault α} {next : α → Script}
    (h : ∀ x, r = .ok x → Shows (next x) t) : Shows (given r next) t := by
  cases r with
  | ok x => exact h x rfl
  | error f => exact .fail f

/-- A name is shown if it is a text. -/
theorem named (name : Value) (f : String → String) (t : Scalar → Token)
    (ht : ∀ s, (t s).isWritable = s.isText) :
    Shows (Script.given name.asName fun s => token (t (s.mapText f)))
      (name.text?.map fun s => (t (.text (f s))).shown) := by
  refine .given fun s hs hw => ?_
  have htext : (s.mapText f).isText = true := ht _ ▸ (completes_token _).1 hw
  cases name with
  | scalar =>
    cases hs
    cases s with
    | text s => exact ⟨_, rfl, rfl⟩
    | _ => cases htext
  | _ => cases hs

theorem reference (name : Value) (tooltip : String) (target : Target) :
    Shows (reference name tooltip target) (shownReference name.text?) :=
  .named name _ (.reference · (.text tooltip) (some target)) fun _ => rfl

theorem declaration (name : Value) (target : Option Target) :
    Shows (declaration name target) (shownDeclaration name.text?) :=
  .named name _ (.declaration · target) fun _ => rfl

end Shows

end Script

end Scribe
