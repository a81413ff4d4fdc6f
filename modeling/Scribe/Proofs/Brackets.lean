import Mathlib.Tactic.Common
import Scribe.Proofs.Trace

/-!
# Brackets

`Bracket.scan` reads a text with a stack of the brackets that are open: a bracket that closes must be
the last one that opened. Separators, line breaks and indentation have no brackets, so the brackets
of a run are those of the steps of its script, whatever the layout (`Bracket.scan_tokens`).

`Script.Turns a b s`: the script reads on the brackets `a`, and leaves `b` open unless it faults.
Scripts that close all they open are `Nests`, and stand wherever they like (`Script.Turns.inside`).
-/

namespace Scribe

inductive Bracket
  | round | square | curly
deriving DecidableEq, Repr

namespace Bracket

def opened? : Char → Option Bracket
  | '(' => some round
  | '[' => some square
  | '\x7b' => some curly
  | _ => none

def closed? : Char → Option Bracket
  | ')' => some round
  | ']' => some square
  | '\x7d' => some curly
  | _ => none

/-- The brackets that are open after a character, the last one first; `none` where one closes that
is not the last one open. -/
def read (stack : List Bracket) (c : Char) : Option (List Bracket) :=
  match opened? c, closed? c with
  | some b, _ => some (b :: stack)
  | none, none => some stack
  | none, some b => match stack with
    | top :: rest => if top = b then some rest else none
    | [] => none

/-- The brackets that are open after a text. -/
def scan (stack : List Bracket) (text : List Char) : Option (List Bracket) := text.foldlM read stack

/-- Every bracket that closes is the last one open, and none stays open. -/
def Nested (text : String) : Prop := scan [] text.toList = some []

/-- Every bracket that closes is the last one open. -/
def Opened (text : String) : Prop := (scan [] text.toList).isSome = true

instance (text : String) : Decidable (Nested text) := inferInstanceAs (Decidable (_ = _))

instance (text : String) : Decidable (Opened text) := inferInstanceAs (Decidable (_ = _))

/-- A text without brackets. -/
def Free (text : List Char) : Prop := ∀ c ∈ text, opened? c = none ∧ closed? c = none

instance (text : List Char) : Decidable (Free text) :=
  decidable_of_iff (text.all fun c => (opened? c).isNone && (closed? c).isNone) (by simp [Free])

variable {a b d : List Bracket} {cs ds : List Char}

@[simp] theorem scan_nil (stack : List Bracket) : scan stack [] = some stack := rfl

theorem scan_append (stack : List Bracket) (cs ds : List Char) :
    scan stack (cs ++ ds) = (scan stack cs).bind (scan · ds) := List.foldlM_append

theorem scan_trans (h : scan a cs = some b) (h' : scan b ds = some d) :
    scan a (cs ++ ds) = some d := by
  rw [scan_append, h]
  exact h'

theorem Free.read {c : Char} (h : opened? c = none ∧ closed? c = none) (stack : List Bracket) :
    read stack c = some stack := by
  rw [Bracket.read, h.1, h.2]

theorem Free.scan (h : Free cs) (stack : List Bracket) : scan stack cs = some stack := by
  induction cs with
  | nil => rfl
  | cons c cs ih =>
    have hc := Free.read (h c (List.mem_cons_self ..)) stack
    rw [Bracket.scan, List.foldlM_cons, hc]
    exact ih fun e he => h e (List.mem_cons_of_mem _ he)

/-- What is open below does not matter to a text that can be read without it. -/
theorem scan_frame (h : scan a cs = some b) (outer : List Bracket) :
    scan (a ++ outer) cs = some (b ++ outer) := by
  induction cs generalizing a with
  | nil => cases h; rfl
  | cons c cs ih =>
    have hread {x : List Bracket} (hx : read a c = some x) :
        read (a ++ outer) c = some (x ++ outer) := by
      unfold read at hx ⊢
      split at hx
      · cases hx; rfl
      · cases hx; rfl
      · split at hx
        · split_ifs at hx ⊢
          cases hx
          simp_all
        · cases hx
    rw [scan, List.foldlM_cons] at h ⊢
    cases hx : read a c with
    | none => rw [hx] at h; cases h
    | some x =>
      rw [hx] at h
      rw [hread hx]
      exact ih h

/-- What joined texts have if the separator has it and each of the texts. -/
theorem forall_intercalate {P : List Char → Prop} (nil : P [])
    (append : ∀ cs ds, P cs → P ds → P (cs ++ ds)) {separator : String} (hs : P separator.toList)
    {texts : List String} (h : ∀ t ∈ texts, P t.toList) :
    P (separator.intercalate texts).toList := by
  rw [String.toList_intercalate]
  induction texts with
  | nil => exact nil
  | cons t texts ih =>
    obtain ⟨ht, htexts⟩ := List.forall_mem_cons.1 h
    cases texts with
    | nil => simpa using ht
    | cons u texts =>
      rw [List.map_cons, List.map_cons, List.intercalate_cons_cons]
      exact append _ _ (append _ _ ht hs) (ih htexts)

/-! ### Texts without brackets -/

namespace Free

theorem nil : Free [] := nofun

theorem append (h : Free cs) (h' : Free ds) : Free (cs ++ ds) := by
  intro c hc
  rcases List.mem_append.1 hc with hc | hc
  · exact h c hc
  · exact h' c hc

theorem cons {c : Char} (hc : opened? c = none ∧ closed? c = none) (h : Free cs) : Free (c :: cs) :=
  List.forall_mem_cons.2 ⟨hc, h⟩

theorem subset (h : Free cs) (hsub : ds ⊆ cs) : Free ds := fun c hc => h c (hsub hc)

theorem replicate (n : Nat) {c : Char} (hc : opened? c = none ∧ closed? c = none) :
    Free (List.replicate n c) := by
  intro d hd
  rw [List.eq_of_mem_replicate hd]
  exact hc

theorem toList_append {s t : String} (h : Free s.toList) (h' : Free t.toList) :
    Free (s ++ t).toList := by
  rw [String.toList_append]
  exact h.append h'

end Free

end Bracket

open Scribe.Bracket

/-- What holds of all texts of a table holds of one that is looked up in it. -/
theorem Value.lookup?_all {P : String → Prop} {table : List (String × String)} {v : Value}
    {found : String} (h : ∀ entry ∈ table, P entry.2) (hv : v.lookup? table = some found) :
    P found := by
  unfold Value.lookup? at hv
  split at hv
  · next word =>
    obtain ⟨before, after, rfl, -⟩ := List.lookup_eq_some_iff.1 hv
    exact h (word, found) (by simp)
  · cases hv

theorem Value.free_lookup {table : List (String × String)} {v : Value} {found : String}
    (h : ∀ entry ∈ table, Free entry.2.toList) (hv : v.lookup? table = some found) :
    Free found.toList := Value.lookup?_all (P := fun t => Free t.toList) h hv

/-! ### Brackets of tokens and steps -/

/-- What a token writes on its line. -/
def Token.chars : Token → List Char
  | .text s => s.toList
  | .stray value => value.plain.toList
  | .declaration name _ => name.plain.toList
  | .reference name _ _ => name.plain.toList
  | .lineBreak | .indent | .outdent => []

/-- What a step writes on its line besides separators. -/
def Step.chars : Step → List Char
  | .token t => t.chars
  | .label name => (name.mapText Identifier.declared).plain.toList
  | _ => []

namespace Bracket

theorem scan_write (stack : List Bracket) (m : Margin) (text : String) :
    scan stack (m.write text).2.toList = scan stack text.toList := by
  unfold Margin.write
  split_ifs
  · have hspaces : Free (Margin.spaces m.level).toList := by
      rw [Margin.spaces, String.toList_ofList]
      exact .replicate _ ⟨rfl, rfl⟩
    rw [String.toList_append, scan_append, hspaces.scan]
    rfl
  · rfl

/-- Indentation and line breaks have no brackets. -/
theorem scan_layout (stack : List Bracket) (m : Margin) (ts : List Token) :
    scan stack (m.layout ts).2.toList = scan stack (ts.flatMap Token.chars) := by
  induction ts generalizing stack m with
  | nil => rfl
  | cons t ts ih =>
    have hput : scan stack (m.put t).2.toList = scan stack t.chars := by
      cases t with
      | lineBreak =>
        show scan stack "\n".toList = some stack
        rfl
      | indent | outdent => rfl
      | _ => exact scan_write stack m _
    rw [Margin.layout_cons, String.toList_append, scan_append, hput, List.flatMap_cons, scan_append]
    exact congrArg _ (funext fun s => ih s _)

/-- Separators have no brackets. -/
theorem scan_apply (stack : List Bracket) (l : Layout) (s : Step) :
    scan stack (((s.apply l).2.filterMap Event.token?).flatMap Token.chars) =
      scan stack s.chars := by
  have hseparator : scan stack (l.separator.2.flatMap Token.chars) = some stack := by
    rw [Layout.separator_snd]
    split_ifs <;> rfl
  cases s with
  | token t => simp [Step.apply, Event.token?, Step.chars]
  | log | openBody | terminate | header | enter | leave => rfl
  | closeBody =>
    rw [Step.apply, Script.filterMap_token, Layout.closeBody_snd]
    exact hseparator
  | separator =>
    rw [Step.apply, Script.filterMap_token]
    exact hseparator
  | finish =>
    rw [Step.apply, Script.filterMap_token, Layout.finish]
    dsimp only
    split_ifs <;> rfl
  | label name =>
    have hcolon (x : List Bracket) : scan x ":".toList = some x := rfl
    rw [Step.apply, Script.filterMap_token, Layout.label_snd]
    split_ifs <;> simp only [List.flatMap_cons, List.flatMap_nil, Token.chars, List.nil_append,
      List.append_nil, Step.chars, scan_append, hcolon, Option.bind_fun_some]

/-- The brackets of a run are those of its steps. -/
theorem scan_tokens (stack : List Bracket) (l : Layout) (steps : List Step) :
    scan stack (((Step.runAll l steps).2.filterMap Event.token?).flatMap Token.chars) =
      scan stack (steps.flatMap Step.chars) := by
  induction steps generalizing stack l with
  | nil => rfl
  | cons s steps ih =>
    simp only [Step.runAll, List.filterMap_append, List.flatMap_append, List.flatMap_cons, scan_append,
      scan_apply, ih]

end Bracket

/-! ### Brackets of scripts -/

namespace Script

variable {a b d : List Bracket} {s t : Script} {l : List Script}

/-- Where the brackets `a` are open the script can be read, and if it does not fault it leaves `b`. -/
def Turns (a b : List Bracket) (s : Script) : Prop :=
  ∃ r, scan a (s.steps.flatMap Step.chars) = some r ∧ (s.fault = none → r = b)

/-- The script closes all that it opens. -/
abbrev Nests (s : Script) : Prop := Turns [] [] s

namespace Turns

theorem append (hs : Turns a b s) (ht : Turns b d t) : Turns a d (s ++ t) := by
  obtain ⟨r, hr, hb⟩ := hs
  cases hf : s.fault with
  | some f =>
    refine ⟨r, ?_, fun hn => by simp [hf] at hn⟩
    rwa [steps_append_of_some hf]
  | none =>
    obtain rfl := hb hf
    obtain ⟨r', hr', hd⟩ := ht
    refine ⟨r', ?_, fun hn => hd (fault_append_eq_none.1 hn).2⟩
    rw [steps_append_of_none hf, List.flatMap_append]
    exact scan_trans hr hr'

theorem frame (h : Turns a b s) (outer : List Bracket) : Turns (a ++ outer) (b ++ outer) s := by
  obtain ⟨r, hr, hb⟩ := h
  exact ⟨r ++ outer, scan_frame hr outer, fun hf => by rw [hb hf]⟩

theorem text {t : String} (h : scan a t.toList = some b) : Turns a b (text t) :=
  ⟨b, by simpa [Script.text, token, steps, Step.chars, Token.chars] using h, fun _ => rfl⟩

theorem fail (f : Fault) : Turns a b (fail f) := ⟨a, rfl, nofun⟩

/-- What closes all that it opens can stand between any brackets. -/
theorem inside (h : Nests s) : Turns a a s := h.frame a

theorem empty : Nests ∅ := ⟨[], rfl, fun _ => rfl⟩

theorem step {t : Step} (h : Free t.chars) : Nests (step t) :=
  ⟨[], by simpa [steps] using h.scan [], fun _ => rfl⟩

theorem token {t : Token} (h : Free t.chars) : Nests (token t) := .step h

theorem lineBreak : Nests lineBreak := .token .nil

theorem indent : Nests (Script.token .indent) := .token .nil

theorem outdent : Nests (Script.token .outdent) := .token .nil

/-- A step that writes nothing but separators. -/
theorem silent {t : Step} (h : t.chars = []) : Nests (Script.step t) := .step (h ▸ .nil)

theorem free {t : String} (h : Free t.toList) : Nests (Script.text t) := .text (h.scan [])

theorem given {α : Type} {r : Except Fault α} {next : α → Script}
    (h : ∀ x, r = .ok x → Nests (next x)) : Nests (given r next) := by
  cases r with
  | ok x => exact h x rfl
  | error f => exact .fail f

theorem ite {p : Prop} [Decidable p] (hs : Nests s) (ht : Nests t) : Nests (if p then s else t) := by
  split_ifs
  · exact hs
  · exact ht

theorem optionally (v : Value) (h : Nests s) : Nests (v.optionally s) := .ite .empty h

/-- What stands between texts that open and close the same brackets. -/
theorem between {opening closing : String} (ho : scan [] opening.toList = some a)
    (h : Nests s) (hc : scan a closing.toList = some []) : Nests (between opening closing s) :=
  ((Turns.text ho).append h.inside).append (.text hc)

theorem parenthesized (h : Nests s) : Nests (parenthesized s) := .between rfl h rfl

theorem bracketed (h : Nests s) : Nests (bracketed s) := .between rfl h rfl

theorem indented (h : Nests s) : Nests (indented s) :=
  (indent.append h).append outdent

theorem body (h : Nests s) : Nests (body s) := ((silent rfl).append h).append (silent rfl)

theorem braced (h : Nests s) : Nests (braced s) := by
  have hin : Turns [.curly] [.curly] (Script.indented (Script.body s)) := h.body.indented.inside
  exact (((Turns.text rfl).append lineBreak.inside).append hin).append (.text rfl) |>.append
    (silent rfl)

theorem simple (h : Nests s) : Nests (simple s) := ((silent rfl).append h).append (silent rfl)

theorem rethrow : Nests rethrow := .simple ((Turns.text rfl).append (.text rfl))

theorem caseLabel (h : Nests s) : Nests (caseLabel s) :=
  (((Turns.text rfl).append h).append (.text rfl)).append lineBreak

theorem sequential : Sequential Nests := ⟨.empty, .append⟩

theorem concat (h : ∀ s ∈ l, Nests s) : Nests (concat l) := sequential.concat h

theorem commaSeparated (h : ∀ s ∈ l, Nests s) : Nests (commaSeparated l) :=
  sequential.commaSeparated (.text rfl) h

theorem blockItems (index : Nat) (h : ∀ s ∈ l, Nests s) : Nests (blockItems index l) :=
  sequential.blockItems (.text rfl) ((Turns.text rfl).append lineBreak) index h

theorem block (h : ∀ s ∈ l, Nests s) : Nests (block l) := by
  have hitems : Turns [.square] [.square] (Script.blockItems 0 l) := (blockItems 0 h).inside
  refine .ite ?_ (((Turns.text rfl).append hitems).append (.text rfl))
  exact ((((((Turns.text rfl).append indent.inside).append lineBreak.inside).append
    hitems).append outdent.inside).append lineBreak.inside).append (.text rfl)

theorem unary (operator : Value) (h : Nests s) : Nests (unary operator s) := by
  unfold Script.unary
  split
  · next hl => exact (Turns.free (Value.free_lookup (by decide) hl)).append h
  · next ht => exact h.append (Turns.free (Value.free_lookup (by decide) ht))
  · exact .fail _

theorem binary (operator : Value) (hs : Nests s) (ht : Nests t) : Nests (binary operator s t) := by
  unfold Script.binary
  split
  · next hb =>
    have hspace : Free " ".toList := .cons ⟨rfl, rfl⟩ .nil
    have hsymbol := Value.free_lookup (by decide) hb
    exact .parenthesized
      ((hs.append (.free ((hspace.toList_append hsymbol).toList_append hspace))).append ht)
  · exact .fail _

theorem unlessEmpty (v : Value) (h : Nests s) : Nests (v.unlessEmpty s) := by
  unfold Value.unlessEmpty
  split
  · exact .ite h .empty
  · exact .fail _

theorem asTarget (v : Value) (h : Nests s) : Nests (v.asTarget s) :=
  .optionally _ ((Turns.ite h.parenthesized h).append (.text rfl))

theorem asCondition (v : Value) (h : Nests s) : Nests (v.asCondition s) := by
  unfold Value.asCondition
  split
  · exact .text rfl
  · exact h
  · exact h.parenthesized

theorem asCallee (v : Value) (h : Nests s) : Nests (v.asCallee s) := by
  unfold Value.asCallee
  split
  · exact h
  · exact h.parenthesized

end Turns

end Script

end Scribe
