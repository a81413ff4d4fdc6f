import Scribe.Proofs.Neutral
import Scribe.Render

/-!
# Code that stays on its line

Most expressions are texts and names, one after the other. `Script.Spells s cs`: the script writes
nothing else, and the characters that it writes are `cs`. What a script spells is put together from
what its parts spell, and it is the plain text of the script (`Script.Spells.plainText`).
-/

namespace Scribe

namespace Token

/-- The text of a token that stays on its line. -/
def lineText? : Token → Option String
  | .text s => some s
  | .declaration (.text name) _ => some name
  | .reference (.text name) _ _ => some name
  | _ => none

/-- Tokens that stay on their line, and the characters that they come to. -/
inductive Spell : List Token → List Char → Prop
  | nil : Spell [] []
  | cons {t : Token} {s : String} {ts : List Token} {cs : List Char} :
    t.lineText? = some s → Spell ts cs → Spell (t :: ts) (s.toList ++ cs)

namespace Spell

variable {t : Token} {s : String} {ts us : List Token} {cs ds : List Char}

theorem one (h : t.lineText? = some s) : Spell [t] s.toList := by
  have := Spell.cons h .nil
  rwa [List.append_nil] at this

theorem append (h : Spell ts cs) (h' : Spell us ds) : Spell (ts ++ us) (cs ++ ds) := by
  induction h with
  | nil => exact h'
  | cons ht _ ih =>
    rw [List.cons_append, List.append_assoc]
    exact .cons ht ih

theorem isWritable (h : Spell ts cs) : ts.all isWritable = true := by
  induction h with
  | nil => rfl
  | @cons t s _ _ ht _ ih =>
    have : t.isWritable = true := by
      unfold lineText? at ht
      split at ht <;> first | rfl | cases ht
    rw [List.all_cons, this, ih, Bool.and_self]

/-- A token on its line writes its text, after the indentation if that is due. -/
theorem put (ht : t.lineText? = some s) (m : Margin) : m.put t = m.write s := by
  unfold lineText? at ht
  split at ht <;> cases ht <;> rfl

/-- Where the margin is at the first column, what tokens on one line write is just what they
spell. -/
theorem layout (h : Spell ts cs) {m : Margin} (hm : m.level = 0) :
    (m.layout ts).2 = String.ofList cs ∧ (m.layout ts).1.level = 0 := by
  induction h generalizing m with
  | nil => exact ⟨rfl, hm⟩
  | @cons t s ts cs ht _ ih =>
    have hput : (m.put t).2 = s ∧ (m.put t).1.level = 0 := by
      rw [put ht, Margin.write]
      split
      · exact ⟨by simp [hm, Margin.spaces], hm⟩
      · exact ⟨rfl, hm⟩
    obtain ⟨htext, hlevel⟩ := ih hput.2
    rw [Margin.layout_cons, hput.1, htext]
    exact ⟨by rw [String.ofList_append, String.ofList_toList], hlevel⟩

end Spell

end Token

open Token (Spell)
open Script

/-! ### Lines on a margin -/

namespace Margin

/-- The indentation that the next text on the line brings along. -/
def due (m : Margin) : List Char := if m.pending then (spaces m.level).toList else []

theorem layout_line {t : Token} {s : String} (h : t.lineText? = some s) (m : Margin)
    (tokens : List Token) : (m.layout (t :: tokens)).2.toList =
      m.due ++ s.toList ++ (Margin.layout ⟨m.level, false⟩ tokens).2.toList := by
  obtain ⟨level, pending⟩ := m
  cases pending <;> simp [layout_cons, Token.Spell.put h, write, due]

theorem layout_text (m : Margin) (s : String) (tokens : List Token) :
    (m.layout (.text s :: tokens)).2.toList =
      m.due ++ s.toList ++ (Margin.layout ⟨m.level, false⟩ tokens).2.toList :=
  layout_line rfl m tokens

theorem layout_lineBreak (m : Margin) (tokens : List Token) :
    (m.layout (.lineBreak :: tokens)).2.toList =
      '\n' :: (Margin.layout ⟨m.level, true⟩ tokens).2.toList := by
  simp [layout_cons, put]

/-- On a line that has begun, tokens add what they spell. -/
theorem layout_spell {ts : List Token} {cs : List Char} (h : Spell ts cs) (level : Int)
    (tokens : List Token) : (Margin.layout ⟨level, false⟩ (ts ++ tokens)).2.toList =
      cs ++ (Margin.layout ⟨level, false⟩ tokens).2.toList := by
  induction h with
  | nil => rfl
  | cons ht _ ih => rw [List.cons_append, layout_line ht, ih]; simp [due]

theorem layout_spell_of_ne_nil {ts : List Token} {cs : List Char} (h : Spell ts cs) (hne : ts ≠ [])
    (m : Margin) (tokens : List Token) : (m.layout (ts ++ tokens)).2.toList =
      m.due ++ cs ++ (Margin.layout ⟨m.level, false⟩ tokens).2.toList := by
  cases h with
  | nil => exact absurd rfl hne
  | cons ht h => simp only [List.cons_append, layout_line ht, layout_spell h, List.append_assoc]

end Margin

theorem Program.named?_variable (p : Program) (i : Nat) : p.named? (.entity ⟨.variable, i⟩) =
    some ⟨.entity ⟨.variable, i⟩, (p.localVariable ⟨i⟩).name⟩ := rfl

namespace Script

variable {a b s : Script} {cs ds : List Char}

/-- The plain text of a script that does not fault is that of the tokens that it writes. -/
theorem plainText_eq_ok {t : String} : s.plainText = .ok t ↔
    s.fault = none ∧ s.written.all Token.isWritable = true ∧ Token.plainText s.written = t := by
  unfold plainText written
  simp only [outcome_fault]
  cases s.fault with
  | none => by_cases hw : s.outcome.tokens.all Token.isWritable = true <;> simp [hw]
  | some f => simp

/-- A name that is a text, used with its description beside it. -/
theorem variableUse_eq (p : Program) {i : Nat} {name : String}
    (h : (p.localVariable ⟨i⟩).name = .ofText name) :
    ∃ tooltip, p.variableUse (.entity ⟨.variable, i⟩) = token (.reference
      (.text (Identifier.referenced name)) tooltip (some (.entity ⟨.variable, i⟩))) := by
  rw [Program.variableUse, p.named?_variable, h]
  exact ⟨_, rfl⟩

/-- The script stays on its line and writes the given characters. -/
structure Spells (s : Script) (cs : List Char) : Prop where
  neutral : Neutral s
  fault : s.fault = none
  written : Spell s.written cs

namespace Spells

theorem token {t : Token} {w : String} (h : t.lineText? = some w)
    (hstill : ∀ l : Layout, l.move t = l) : Spells (token t) w.toList :=
  ⟨.of_still hstill, rfl, .one h⟩

theorem text (w : String) : Spells (text w) w.toList := token rfl fun _ => rfl

theorem empty : Spells ∅ [] := ⟨.empty, rfl, .nil⟩

theorem append (ha : Spells a cs) (hb : Spells b ds) : Spells (a ++ b) (cs ++ ds) := by
  refine ⟨ha.neutral.append hb.neutral, fault_append_eq_none.2 ⟨ha.fault, hb.fault⟩, ?_⟩
  rw [ha.neutral.written_append hb.neutral ha.fault]
  exact ha.written.append hb.written

theorem delayed {part : Unit → Script} (h : Spells (part ()) cs) : Spells (delayed part) cs :=
  ⟨h.neutral.delayed, h.fault, h.written⟩

theorem parenthesized (h : Spells a cs) : Spells (parenthesized a) ('(' :: cs ++ [')']) :=
  ((Spells.text "(").append h).append (.text ")")

theorem leading {operator : Value} {symbol : String} (h : leadingSymbol? operator = some symbol)
    (ha : Spells a cs) : Spells (unary operator a) (symbol.toList ++ cs) := by
  have hunary : unary operator a = Script.text symbol ++ a := by simp [unary, h]
  rw [hunary]
  exact (Spells.text symbol).append ha

theorem trailing {operator : Value} {symbol : String} (h : leadingSymbol? operator = none)
    (h' : trailingSymbol? operator = some symbol) (ha : Spells a cs) :
    Spells (unary operator a) (cs ++ symbol.toList) := by
  have hunary : unary operator a = a ++ Script.text symbol := by simp [unary, h, h']
  rw [hunary]
  exact ha.append (Spells.text symbol)

/-- Items with commas between them. -/
theorem commaSeparated {items : List Script} {texts : List (List Char)}
    (h : List.Forall₂ Spells items texts) :
    Spells (commaSeparated items) ([',', ' '].intercalate texts) := by
  induction h with
  | nil => exact .empty
  | @cons item cs items texts hitem hitems ih =>
    cases hitems with
    | nil =>
      rw [List.intercalate_singleton]
      exact hitem
    | cons _ _ =>
      rw [List.intercalate_cons_cons]
      exact (hitem.append (.text ", ")).append ih

theorem variableUse (p : Program) {i : Nat} {name : String}
    (h : (p.localVariable ⟨i⟩).name = .ofText name) :
    Spells (p.variableUse (.entity ⟨.variable, i⟩)) (Identifier.referenced name).toList := by
  obtain ⟨tooltip, huse⟩ := variableUse_eq p h
  rw [huse]
  exact token rfl fun _ => rfl

theorem plainText (h : Spells s cs) : s.plainText = .ok (String.ofList cs) :=
  plainText_eq_ok.2 ⟨h.fault, h.written.isWritable, (h.written.layout rfl).1⟩

end Spells

end Script

/-- What stands before the dot of a member is neutral. -/
theorem Context.target_neutral (c : Context) (v : Value) : Neutral (v.asTarget (c.exprSlot v)) :=
  Fits.law (Fits.asTarget v (c.exprSlot_fits v))

end Scribe
