import Scribe.Proofs.Flat

/-!
# Separators come to the flat layout

A render writes what ends a statement only when the next one starts, from what it remembers of the
last. `Script.Placed` carries the argument that this comes to the units of `Context.unit`: what a
run of statements writes, and the separator it leaves due, are together the separator that was due
before and the units of the statements. `Script.Started` and `Script.Own` are the same for a
statement from its separator on and for what stands after it.

`Context.statement_flat`: a block that renders without a fault, in which the headers of loops are
plain, writes the units of its statements one after the other, and so does every function in it.
-/

namespace Scribe

open Flat

namespace Layout

/-- Among statements at the given depth, and not in the header of a loop. -/
structure At (depth : Nat) (l : Layout) : Prop where
  depth : l.depth = depth
  forHeader : l.forHeader = false

/-- After the separator of a statement. -/
structure Ground (depth : Nat) (l : Layout) : Prop extends At depth l where
  firstStatement : l.firstStatement = false
  needsTerminator : l.needsTerminator = false

/-- Before the first statement nothing needs a terminator. -/
def Clean (l : Layout) : Prop := l.firstStatement = true → l.needsTerminator = false

variable {d : Nat} {l : Layout}

theorem At.nonneg (h : At d l) : 0 ≤ l.depth := by
  rw [h.depth]
  exact Int.natCast_nonneg d

theorem At.separator (h : At d l) : Ground d l.separator.1 := by
  rw [separator_fst]
  exact ⟨⟨h.depth, h.forHeader⟩, rfl, rfl⟩

theorem At.indent (h : At d l) : At (d + 1) (l.move .indent) := by
  refine ⟨?_, h.forHeader⟩
  show l.depth + 1 = _
  rw [h.depth]
  rfl

theorem At.outdent (h : At (d + 1) l) : At d (l.move .outdent) := by
  refine ⟨?_, h.forHeader⟩
  show l.depth - 1 = _
  rw [h.depth]
  omega

theorem Ground.indent (h : Ground d l) : Ground (d + 1) (l.move .indent) :=
  ⟨h.toAt.indent, h.firstStatement, h.needsTerminator⟩

theorem Ground.outdent (h : Ground (d + 1) l) : Ground d (l.move .outdent) :=
  ⟨h.toAt.outdent, h.firstStatement, h.needsTerminator⟩

theorem Ground.clean (h : Ground d l) : l.Clean := fun _ => h.needsTerminator

theorem Ground.settle (h : Ground d l) (keeps : Bool) : l.settle keeps = l := by
  obtain ⟨depth, forHeader, firstStatement, needsTerminator, suspended⟩ := l
  obtain rfl : firstStatement = false := h.firstStatement
  rfl

end Layout

open Layout

namespace Script

variable {a b s : Script} {d : Nat} {u w : List Token} {v : Value}

/-- The parts of a statement after its separator write `u`. -/
def Own (d : Nat) (s : Script) (u : List Token) : Prop :=
  s.fault = none → ∀ l, Ground d l → s.tokens l = u ∧ Ground d (s.after l)

/-- A statement from its separator on writes the separator that is due, and `u`. -/
def Started (d : Nat) (s : Script) (u : List Token) : Prop :=
  s.fault = none → ∀ l, At d l → s.tokens l = l.separator.2 ++ u ∧ Ground d (s.after l)

/-- Statements write, with the separator that they leave due, the separator that is due, and `u`. -/
def Placed (d : Nat) (s : Script) (u : List Token) : Prop :=
  s.fault = none → ∀ l, At d l →
    s.tokens l ++ (s.after l).separator.2 = l.separator.2 ++ u ∧ At d (s.after l) ∧
      (l.Clean → (s.after l).Clean)

theorem concat_strays {item : Value → Script} (v : Value) (h : ∀ w, (item w).fault ≠ none) :
    concat (v.strays item) = ∅ ∨ (concat (v.strays item)).fault ≠ none := by
  have hall := v.mem_strays (P := fun s => s.fault ≠ none) (fun _ => Option.some_ne_none _) h
  cases hs : v.strays item with
  | nil => exact .inl rfl
  | cons first rest =>
    have hf : first.fault ≠ none := hall first (by rw [hs]; exact List.mem_cons_self ..)
    exact .inr fun hn => hf (fault_append_eq_none.1 hn).1

/-! ### Parts of statements -/

namespace Own

theorem of_fault {f : Fault} (h : s.fault = some f) (u : List Token) : Own d s u :=
  fun hf => by simp [h] at hf

theorem empty : Own d ∅ [] := fun _ _ hl => ⟨rfl, hl⟩

theorem append (ha : Own d a u) (hb : Own d b w) : Own d (a ++ b) (u ++ w) := by
  intro hf l hl
  obtain ⟨hfa, hfb⟩ := fault_append_eq_none.1 hf
  obtain ⟨hta, hla⟩ := ha hfa l hl
  obtain ⟨htb, hlb⟩ := hb hfb _ hla
  rw [tokens_append hfa, after_append hfa, hta, htb]
  exact ⟨rfl, hlb⟩

/-- An expression writes what it writes on its own. -/
theorem of_neutral (h : Neutral s) : Own d s s.written := by
  intro hf l hl
  obtain ⟨keeps, h⟩ := h.runs hf
  have hrun := h l hl.nonneg
  rw [hrun.tokens, hrun.after, hl.settle]
  exact ⟨rfl, hl⟩

theorem of_inline (h : Inline s) : Own d s s.written := .of_neutral h.law

theorem text (s : String) : Own d (text s) [.text s] := fun _ _ hl => ⟨rfl, hl⟩

theorem lineBreak : Own d lineBreak [.lineBreak] := fun _ _ hl => ⟨rfl, hl⟩

theorem indented (h : Own (d + 1) s u) : Own d (indented s) (.indent :: u ++ [.outdent]) := by
  intro hf l hl
  rw [fault_indented] at hf
  obtain ⟨ht, hl'⟩ := h hf _ hl.indent
  rw [tokens_indented hf, after_indented hf, ht]
  exact ⟨rfl, hl'.outdent⟩

/-- Statements one level in start afresh, whatever the last statement needed. -/
theorem run_body (h : Placed d s u) (hf : s.fault = none) {l : Layout} (hl : At d l) :
    (body s).tokens l = u ∧ At d ((body s).after l) ∧ ((body s).after l).firstStatement = false := by
  obtain ⟨ht, hl', -⟩ := h hf { l with firstStatement := true } ⟨hl.depth, hl.forHeader⟩
  have hsep : (Layout.separator { l with firstStatement := true }).2 = [] := by
    simp [separator_snd]
  rw [hsep, List.nil_append] at ht
  rw [tokens_body hf, after_body hf, closeBody_fst, ht]
  exact ⟨rfl, ⟨hl'.depth, hl'.forHeader⟩, rfl⟩

/-- A body in braces, on any layout at its depth. -/
theorem run_braced (h : Placed (d + 1) s u) (hf : s.fault = none) {l : Layout} (hl : At d l) :
    (braced s).tokens l = braces u ∧ Ground d ((braced s).after l) := by
  obtain ⟨ht, hl', hfirst⟩ := run_body h hf hl.indent
  have hbody : (body s).fault = none := by rw [fault_body, hf]
  have hin : Runs (Script.indented (Script.body s)) l (.indent :: u ++ [.outdent])
      (((Script.body s).after (l.move .indent)).move .outdent) :=
    ⟨by rw [fault_indented, hbody], by rw [tokens_indented hbody, ht], after_indented hbody l⟩
  have hrun := ((((runs_text " \x7b" l).append (runs_lineBreak l)).append hin).append
    (runs_text "\x7d" _)).append (b := step (.terminate false)) ⟨rfl, rfl, rfl⟩
  refine ⟨hrun.tokens.trans (by simp [braces, Step.apply]), ?_⟩
  rw [Script.braced, hrun.after]
  exact ⟨⟨hl'.outdent.depth, hl'.outdent.forHeader⟩, hfirst, rfl⟩

theorem braced (h : Placed (d + 1) s u) : Own d (braced s) (braces u) := by
  intro hf l hl
  exact run_braced h (by simpa [Script.braced] using hf) hl.toAt

/-- The statements of a case, which stand in no braces. -/
theorem body (h : Placed (d + 1) s u) :
    Own d (Script.indented (body s)) (.indent :: u ++ [.outdent]) := by
  refine indented fun hf l hl => ?_
  rw [fault_body] at hf
  obtain ⟨ht, hl', hfirst⟩ := run_body h hf hl.toAt
  refine ⟨ht, hl', hfirst, ?_⟩
  obtain ⟨-, -, hclean⟩ := h hf { l with firstStatement := true } ⟨hl.depth, hl.forHeader⟩
  rw [after_body hf, closeBody_fst]
  have hc := hclean fun _ => hl.needsTerminator
  cases hfs : (s.after { l with firstStatement := true }).firstStatement with
  | true => simp [hc hfs]
  | false => rfl

theorem optionally (h : Own d s u) (hv : v.isNull = true → u = []) : Own d (v.optionally s) u := by
  unfold Value.optionally
  split_ifs with hn
  · rw [hv hn]
    exact empty
  · exact h

theorem unlessEmpty (h : Own d s u) : Own d (v.unlessEmpty s) (Flat.unlessEmpty v u) := by
  unfold Value.unlessEmpty
  split
  · rw [Flat.unlessEmpty]
    split_ifs
    · exact h
    · exact empty
  · exact of_fault rfl _

/-- What stands in place of a list and has items at all has none that can be written. -/
theorem strays {item : Value → Script} (h : ∀ w, (item w).fault ≠ none) :
    Own d (concat (v.strays item)) [] := by
  rcases concat_strays v h with he | he
  · rw [he]
    exact empty
  · exact fun hf => absurd hf he

end Own

/-! ### Statements -/

namespace Started

theorem first : Started d (step .separator) [] := by
  intro _ l hl
  refine ⟨?_, hl.separator⟩
  rw [tokens_step, Step.apply, filterMap_token, List.append_nil]

theorem append (ha : Started d a u) (hb : Own d b w) : Started d (a ++ b) (u ++ w) := by
  intro hf l hl
  obtain ⟨hfa, hfb⟩ := fault_append_eq_none.1 hf
  obtain ⟨hta, hla⟩ := ha hfa l hl
  obtain ⟨htb, hlb⟩ := hb hfb _ hla
  rw [tokens_append hfa, after_append hfa, hta, htb, List.append_assoc]
  exact ⟨rfl, hlb⟩

end Started

namespace Placed

theorem of_fault {f : Fault} (h : s.fault = some f) (u : List Token) : Placed d s u :=
  fun hf => by simp [h] at hf

theorem empty : Placed d ∅ [] := fun _ l hl => ⟨by simp, hl, id⟩

theorem append (ha : Placed d a u) (hb : Placed d b w) : Placed d (a ++ b) (u ++ w) := by
  intro hf l hl
  obtain ⟨hfa, hfb⟩ := fault_append_eq_none.1 hf
  obtain ⟨hta, hla, hca⟩ := ha hfa l hl
  obtain ⟨htb, hlb, hcb⟩ := hb hfb _ hla
  rw [tokens_append hfa, after_append hfa]
  refine ⟨?_, hlb, hcb ∘ hca⟩
  calc a.tokens l ++ b.tokens (a.after l) ++ (b.after (a.after l)).separator.2
      = a.tokens l ++ ((a.after l).separator.2 ++ w) := by rw [List.append_assoc, htb]
    _ = l.separator.2 ++ (u ++ w) := by rw [← List.append_assoc, hta, List.append_assoc]

theorem optionally (h : Placed d s u) (hv : v.isNull = true → u = []) :
    Placed d (v.optionally s) u := by
  unfold Value.optionally
  split_ifs with hn
  · rw [hv hn]
    exact empty
  · exact h

/-- A statement that ends in a brace or a comment. -/
theorem closed (h : Started d s u) : Placed d s (closed u) := by
  intro hf l hl
  obtain ⟨ht, hl'⟩ := h hf l hl
  refine ⟨?_, hl'.toAt, fun _ => hl'.clean⟩
  rw [ht, separator_snd (s.after l), hl'.firstStatement, hl'.forHeader, hl'.needsTerminator]
  simp [Flat.closed]

/-- The same, where it is said that there is nothing to terminate. -/
theorem unterminated (h : Started d s u) : Placed d (s ++ step (.terminate false)) (Flat.closed u) := by
  refine closed fun hf l hl => ?_
  obtain ⟨hfs, -⟩ := fault_append_eq_none.1 hf
  obtain ⟨ht, hl'⟩ := h hfs l hl
  rw [tokens_append hfs, after_append hfs, ht]
  exact ⟨by simp [Step.apply], ⟨hl'.depth, hl'.forHeader⟩, hl'.firstStatement, rfl⟩

/-- A statement that ends in a terminator, of which only the next separator knows. -/
theorem terminated (h : Started d s u) : Placed d (s ++ step (.terminate true)) (line u) := by
  intro hf l hl
  obtain ⟨hfs, -⟩ := fault_append_eq_none.1 hf
  obtain ⟨ht, hl'⟩ := h hfs l hl
  rw [tokens_append hfs, after_append hfs, ht]
  refine ⟨?_, ⟨hl'.depth, hl'.forHeader⟩, fun _ hfirst => ?_⟩
  · rw [separator_snd (Script.after _ _)]
    simp [Step.apply, hl'.firstStatement, hl'.forHeader, line]
  · simp [Step.apply, hl'.firstStatement] at hfirst

theorem simple (h : Own d s u) : Placed d (simple s) (line u) :=
  terminated (Started.first.append h)

/-- What stands before the separator of a statement is a statement of its own. -/
theorem next (h : Placed d s u) : Started d (s ++ step .separator) u := by
  intro hf l hl
  obtain ⟨hfs, -⟩ := fault_append_eq_none.1 hf
  obtain ⟨ht, hl', -⟩ := h hfs l hl
  obtain ⟨hts, hg⟩ := Started.first (d := d) rfl _ hl'
  rw [tokens_append hfs, after_append hfs, hts, List.append_nil, ht]
  exact ⟨rfl, hg⟩

theorem strays {item : Value → Script} (h : ∀ w, (item w).fault ≠ none) :
    Placed d (concat (v.strays item)) [] := by
  rcases concat_strays v h with he | he
  · rw [he]
    exact empty
  · exact fun hf => absurd hf he

/-- A label asks for no separator after it. -/
theorem label (name : Value) :
    Placed d (step .separator ++ given name.asName fun name => step (.label name))
      (Flat.label d name) := by
  intro hf l hl
  unfold Flat.label
  cases hn : name.asName with
  | error f => simp [given, hn] at hf
  | ok name =>
    obtain ⟨hts, hg⟩ := Started.first (d := d) rfl _ hl
    show (step .separator ++ step (.label name)).tokens l ++ _ = _ ∧ At d (after _ l) ∧ _
    have hd : (0 < ((step Step.separator).after l).depth) = (0 < d) := by
      rw [hg.depth]
      simp
    have htl (m : Layout) : (step (.label name)).tokens m = (m.label name).2 := by
      rw [tokens_step, Step.apply, filterMap_token]
    have hdue (m : Layout) : (m.label name).1.separator.2 = [] := by
      simp [separator_snd, Layout.label]
    rw [given, tokens_append rfl, after_append rfl, hts, htl, label_snd, after_step (.label name)]
    refine ⟨?_, ⟨hg.depth, hg.forHeader⟩, fun _ _ => hg.needsTerminator⟩
    rw [Step.apply, hdue]
    simp only [hd, List.append_nil]
    split_ifs <;> rfl

end Placed

/-! ### Headers of loops -/

/-- Statements in the header of a loop write the parts of it, with commas between them. -/
def Headed (d : Nat) (s : Script) (parts : List (List Token)) : Prop :=
  s.fault = none → ∀ l : Layout, l.depth = d → l.forHeader = true →
    s.tokens l = commas l.firstStatement parts ∧ (s.after l).depth = d ∧
      (s.after l).forHeader = true ∧
      (s.after l).firstStatement = (l.firstStatement && parts.isEmpty)

namespace Headed

variable {parts rest : List (List Token)}

theorem empty : Headed d ∅ [] := fun _ l hd hh => ⟨rfl, hd, hh, by simp⟩

theorem append (ha : Headed d a parts) (hb : Headed d b rest) :
    Headed d (a ++ b) (parts ++ rest) := by
  intro hf l hd hh
  obtain ⟨hfa, hfb⟩ := fault_append_eq_none.1 hf
  obtain ⟨hta, hda, hha, hsa⟩ := ha hfa l hd hh
  obtain ⟨htb, hdb, hhb, hsb⟩ := hb hfb _ hda hha
  rw [tokens_append hfa, after_append hfa, hta, htb, hsa, commas_append]
  exact ⟨rfl, hdb, hhb, by cases parts <;> simp [hsb, hsa]⟩

theorem strays {item : Value → Script} (h : ∀ w, (item w).fault ≠ none) :
    Headed d (concat (v.strays item)) [] := by
  rcases concat_strays v h with he | he
  · rw [he]
    exact empty
  · exact fun hf => absurd hf he

theorem simple (h : Neutral s) : Headed d (simple s) [s.written] := by
  intro hf l hd hh
  have hfs : s.fault = none := by simpa [Script.simple] using hf
  obtain ⟨keeps, h⟩ := h.runs hfs
  have hsep : Runs (step .separator) l (if l.firstStatement then [] else [.text ", "])
      l.separator.1 := by
    refine ⟨rfl, ?_, rfl⟩
    rw [tokens_step, Step.apply, filterMap_token, separator_snd, hh]
    rfl
  have hl : 0 ≤ l.separator.1.depth := by
    rw [separator_fst, hd]
    omega
  have hrun := (hsep.append (h _ hl)).append (b := step (.terminate true)) ⟨rfl, rfl, rfl⟩
  rw [Script.simple, hrun.tokens, hrun.after]
  simp [commas, Step.apply, settle, hd, hh]

end Headed

/-- The header of a loop and the body after it. What the header leaves behind, the braces forget. -/
theorem Started.loop {start condition increment inner : Script} {left right : List (List Token)}
    (ha : Started d a u) (hs : Headed d start left) (hc : Neutral condition)
    (hi : Headed d increment right) (hb : Placed (d + 1) inner w) :
    Started d (a ++ step (.header true) ++ step .openBody ++ start ++ text "; " ++ condition ++
        text "; " ++ step .openBody ++ increment ++ step (.header false) ++ text ")" ++
        braced inner)
      (u ++ commas true left ++ [.text "; "] ++ condition.written ++ [.text "; "] ++
        commas true right ++ [.text ")"] ++ braces w) := by
  intro hf l hl
  simp only [fault_append_eq_none] at hf
  obtain ⟨⟨⟨⟨⟨⟨⟨⟨⟨⟨⟨hfa, -⟩, -⟩, hfs⟩, -⟩, hfc⟩, -⟩, -⟩, hfi⟩, -⟩, -⟩, hfb⟩ := hf
  obtain ⟨keeps, hc⟩ := hc.runs hfc
  obtain ⟨hta, hla⟩ := ha hfa l hl
  obtain ⟨hts, hds, hhs, -⟩ := hs hfs { a.after l with forHeader := true, firstStatement := true }
    hla.depth rfl
  set m := start.after { a.after l with forHeader := true, firstStatement := true } with hm
  have hcond := hc m (by rw [hds]; omega)
  obtain ⟨hti, hdi, -, -⟩ := hi hfi { m.settle keeps with firstStatement := true } hds hhs
  set n := increment.after { m.settle keeps with firstStatement := true } with hn
  have hfb' : inner.fault = none := by simpa [braced] using hfb
  obtain ⟨htb, hlb⟩ := Own.run_braced hb hfb' (l := { n with forHeader := false }) ⟨hdi, rfl⟩
  have hopen : Runs (a ++ step (.header true) ++ step .openBody ++ start) l
      (l.separator.2 ++ u ++ [] ++ [] ++ commas true left) m :=
    (((⟨hfa, hta, rfl⟩ : Runs a l _ _).append ⟨rfl, rfl, rfl⟩).append ⟨rfl, rfl, rfl⟩).append
      ⟨hfs, hts, rfl⟩
  have hmid := ((hopen.append (runs_text "; " m)).append hcond).append (runs_text "; " _)
  have hlast : Runs _ l _ n := (hmid.append (b := step .openBody) ⟨rfl, rfl, rfl⟩).append
    ⟨hfi, hti, rfl⟩
  have hrun := ((hlast.append (b := step (.header false)) ⟨rfl, rfl, rfl⟩).append
    (runs_text ")" _)).append ⟨hfb, htb, rfl⟩
  refine ⟨hrun.tokens.trans (by simp [Step.apply]), ?_⟩
  rw [hrun.after]
  exact hlb

end Script

open Script

/-! ### Code -/

namespace Context

variable (c : Context) {d : Nat}

mutual

theorem stmtSlot_headed (v : Value) (h : v.isPlain = true) :
    Headed d (c.stmtSlot v) (c.headerParts v) := by
  cases v with
  | stmt s => exact stmt_headed s h
  | _ => cases h
termination_by structural v

theorem stmtItems_headed (v : Value) (h : v.arePlain = true) :
    Headed d (concat (c.stmtItems v)) (c.headerPartsIn v) := by
  cases v with
  | list items => exact stmtSlots_headed items h
  | _ =>
    rw [stmtItems]
    exacts [.strays fun _ => Option.some_ne_none _, by simp]
termination_by structural v

theorem stmtSlots_headed : ∀ vs : List Value, Value.allPlain vs = true →
    Headed d (concat (c.stmtSlots vs)) (c.headerPartsAll vs)
  | [], _ => .empty
  | first :: rest, h => by
    obtain ⟨hf, hr⟩ := Bool.and_eq_true_iff.1 h
    exact (stmtSlot_headed first hf).append (stmtSlots_headed rest hr)
termination_by structural vs => vs

theorem stmt_headed (s : Stmt) (h : s.isPlain = true) :
    Headed d (c.stmt s) (c.headerPartsOf s) := by
  cases s with
  | block statements => exact stmtItems_headed statements h
  | expression expression =>
    rw [stmt, headerPartsOf]
    split_ifs
    · exact .empty
    · exact .simple (c.exprSlot_neutral expression)
  | _ => cases h
termination_by structural s

end

/-- A side of a header that is empty or plain. -/
theorem side_headed {v : Value} (h : (v.isNull || v.isPlain) = true) :
    Headed d (v.optionally (c.stmtSlot v)) (c.headerParts v) := by
  unfold Value.optionally
  split_ifs with hn
  · cases v with
    | scalar s => exact .empty
    | _ => cases hn
  · exact c.stmtSlot_headed v (by simpa [hn] using h)

theorem unitSlot_null {v : Value} (h : v.isNull = true) : c.unitSlot d v = [] := by
  cases v with
  | scalar s => rfl
  | _ => cases h

/-- What is placed where it stands is placed where it may be left out. -/
theorem optional_placed {v : Value} (h : Placed d (c.stmtSlot v) (c.unitSlot d v)) :
    Placed d (v.optionally (c.stmtSlot v)) (c.unitSlot d v) :=
  h.optionally c.unitSlot_null

mutual

theorem stmtSlot_placed (d : Nat) (v : Value) (h : v.PlainHeaders) :
    Placed d (c.stmtSlot v) (c.unitSlot d v) := by
  cases v with
  | scalar s => cases s <;> exact .of_fault rfl _
  | stmt s => exact stmt_placed d s h
  | _ => exact .of_fault rfl _
termination_by structural v

theorem stmtItems_placed (d : Nat) (v : Value) (h : v.PlainHeaders) :
    Placed d (concat (c.stmtItems v)) (c.units d v) := by
  cases v with
  | list items => exact stmtSlots_placed d items fun w hw => h.slot hw
  | _ =>
    rw [stmtItems]
    exacts [.strays fun _ => Option.some_ne_none _, by simp]
termination_by structural v

theorem stmtSlots_placed (d : Nat) : ∀ vs : List Value, (∀ v ∈ vs, v.PlainHeaders) →
    Placed d (concat (c.stmtSlots vs)) (c.unitAll d vs)
  | [], _ => .empty
  | first :: rest, h => by
    obtain ⟨hf, hr⟩ := List.forall_mem_cons.1 h
    exact (stmtSlot_placed d first hf).append (stmtSlots_placed d rest hr)
termination_by structural vs => vs

theorem stmt_placed (d : Nat) : ∀ s : Stmt, (Value.stmt s).PlainHeaders →
    Placed d (c.stmt s) (c.unit d s)
  | .bare, _ => .of_fault rfl _
  | .block statements, h => stmtItems_placed d statements h.slots
  | .expression expression, _ => by
    rw [stmt, unit]
    split_ifs
    · exact .empty
    · exact .simple (.of_neutral (c.exprSlot_neutral expression))
  | .goto _ name, _ => by
    rw [stmt, unit]
    have hn := Program.isName_declaration name none
    exact .simple ((Own.text _).append (.of_neutral hn.neutral))
  | .labeled _ name statement, h => by
    rw [stmt, unit]
    obtain ⟨-, hs⟩ := h.slots
    exact (Placed.label name).append (c.optional_placed (stmtSlot_placed d statement hs))
  | .condition condition yes no, h => by
    rw [stmt, unit]
    obtain ⟨-, hy, hn⟩ := h.slots
    have hyes := c.optional_placed (stmtSlot_placed (d + 1) yes hy)
    have hno := stmtSlot_placed (d + 1) no hn
    have helse : Own d (no.optionally (no.unlessEmpty (lineBreak ++ text "else" ++
        braced (c.stmtSlot no)))) (Flat.unlessEmpty no ([.lineBreak, .text "else"] ++
        braces (c.unitSlot (d + 1) no))) := by
      refine Own.optionally (.unlessEmpty ((Own.lineBreak.append (.text _)).append (.braced hno))) ?_
      intro hn
      cases no with
      | scalar s => rfl
      | _ => cases hn
    exact .closed ((((Started.first.append (.text _)).append
      (.of_inline (.asCondition _ (c.exprSlot_fits condition)))).append (.braced hyes)).append helse)
  | .return value, _ => by
    rw [stmt, unit]
    exact .simple ((Own.text _).append
      (.of_inline (.optionally _ (.append (.text _) (c.exprSlot_fits value)))))
  | .for start condition increment body, h => by
    rw [stmt, unit]
    obtain ⟨-, -, -, hb⟩ := h.slots
    obtain ⟨hs, hi⟩ := Bool.and_eq_true_iff.1 (h _ (.refl _))
    have hbody := c.optional_placed (stmtSlot_placed (d + 1) body hb)
    have hc := (Fits.optionally condition (c.exprSlot_fits condition)).law
    exact .closed ((Started.first.append (.text _)).loop (c.side_headed hs) hc (c.side_headed hi)
      hbody)
  | .forEach bound source body, h | .fixed bound source body, h => by
    rw [stmt, unit]
    obtain ⟨-, -, hb⟩ := h.slots
    exact .closed ((((((Started.first.append (.text _)).append
      (.of_inline (c.program.variableUse_inline bound))).append (.text _)).append
      (.of_neutral (c.exprSlot_neutral source))).append (.text _)).append
      (.braced (c.optional_placed (stmtSlot_placed (d + 1) body hb))))
  | .using resource body, h => by
    rw [stmt, unit]
    obtain ⟨-, hb⟩ := h.slots
    have hbody := c.optional_placed (stmtSlot_placed (d + 1) body hb)
    have ha : Placed d (acquire resource (c.exprSlot resource))
        (if resource.assignedVariable?.isSome then line (c.exprSlot resource).written else []) := by
      unfold acquire
      split_ifs
      · exact .simple (.of_neutral (c.exprSlot_neutral resource))
      · exact .empty
    have hr := Own.of_inline (d := d + 1) (c.release_inline resource (c.exprSlot_fits resource))
    have hall := Placed.unterminated (((((((ha.next.append (.text "try")).append
      (.braced hbody)).append .lineBreak).append (.text "finally \x7b")).append .lineBreak).append
      hr.indented).append (.text "\x7d"))
    simpa [closed] using hall
  | .while condition body, h | .lock condition body, h => by
    rw [stmt, unit]
    obtain ⟨-, hb⟩ := h.slots
    exact .closed (((Started.first.append (.text _)).append
      (.of_inline (.asCondition _ (c.exprSlot_fits condition)))).append
      (.braced (c.optional_placed (stmtSlot_placed (d + 1) body hb))))
  | .do condition body, h => by
    rw [stmt, unit]
    obtain ⟨-, hb⟩ := h.slots
    exact .simple ((((Own.text _).append
      (.braced (c.optional_placed (stmtSlot_placed (d + 1) body hb)))).append (.text _)).append
      (.of_inline (.asCondition _ (c.exprSlot_fits condition))))
  | .try body catches fault last, h => by
    rw [stmt, unit]
    obtain ⟨hb, hc, hf, hl⟩ := h.slots
    have hbody := c.optional_placed (stmtSlot_placed (d + 1) body hb)
    have hfault := stmtSlot_placed (d + 1) fault hf
    have hlast := stmtSlot_placed (d + 1) last hl
    have hr : Placed (d + 1) rethrow (line [.text "throw ", .text "e"]) :=
      .simple ((Own.text _).append (.text _))
    exact .unterminated (((((Started.first.append (.text _)).append (.braced hbody)).append
      (catchItems_placed d catches hc)).append
      (.unlessEmpty ((Own.lineBreak.append (.text _)).append (.braced (hfault.append hr))))).append
      (.unlessEmpty ((Own.lineBreak.append (.text _)).append (.braced hlast))))
  | .throw value, _ => by
    rw [stmt, unit]
    refine .simple ((Own.text _).append (.of_inline ?_))
    split_ifs
    · exact .text _
    · exact c.exprSlot_fits value
  | .attach event listener, _ | .detach event listener, _ => by
    rw [stmt, unit]
    exact .simple (((Own.of_neutral (c.exprSlot_neutral event)).append (.text _)).append
      (.of_neutral (c.exprSlot_neutral listener)))
  | .switch subject cases, h => by
    rw [stmt, unit]
    obtain ⟨-, hc⟩ := h.slots
    have hall := Placed.unterminated ((((((Started.first.append (.text "switch ")).append
      (.of_inline (.asCondition subject (c.exprSlot_fits subject)))).append (.text " \x7b")).append
      .lineBreak).append (switchItems_placed d subject cases hc)).append (.text "\x7d"))
    simpa [closed] using hall
  | .break, _ | .continue, _ | .debugBreak, _ => .simple (.text _)
  | .memoryCopy first second length, _ | .memoryFill first second length, _ => by
    rw [stmt, unit]
    exact .simple (.of_inline (arguments_inline (c.exprSlot_fits first) (c.exprSlot_fits second)
      (c.exprSlot_fits length)))
  | .comment content, _ => by
    rw [stmt, unit]
    exact .unterminated (Started.first.append
      (.of_inline (.given fun lines _ => comment_inline lines)))
termination_by structural s => s

theorem catchClause_placed (d : Nat) (v : Value) (h : v.PlainHeaders) :
    Own d (c.catchClause v) (c.catchUnit d v) := by
  cases v with
  | clause k =>
    cases k with
    | «catch» body bound condition =>
      rw [catchClause, catchUnit]
      refine (Own.of_inline (c.catchHead_inline bound)).append ?_
      obtain ⟨hbody, -⟩ := h.slots
      have hb (e : Nat) := c.optional_placed (stmtSlot_placed e body hbody)
      split_ifs
      · exact .braced (hb (d + 1))
      · have hif := (((Own.text (d := d + 1) "if ").append
          (.of_inline (.asCondition condition (c.exprSlot_fits condition)))).append
          (.braced (hb (d + 2)))).append .lineBreak
        exact (((Own.text _).append .lineBreak).append hif.indented).append (.text _)
    | _ => exact .of_fault rfl _
  | _ => exact .of_fault rfl _
termination_by structural v

theorem catchItems_placed (d : Nat) (v : Value) (h : v.PlainHeaders) :
    Own d (concat (c.catchItems v)) (c.catchUnits d v) := by
  cases v with
  | list items => exact catchClauses_placed d items fun w hw => h.slot hw
  | _ =>
    rw [catchItems]
    exacts [.strays fun _ => Option.some_ne_none _, by simp]
termination_by structural v

theorem catchClauses_placed (d : Nat) : ∀ vs : List Value, (∀ v ∈ vs, v.PlainHeaders) →
    Own d (concat (c.catchClauses vs)) (c.catchUnitAll d vs)
  | [], _ => .empty
  | first :: rest, h => by
    obtain ⟨hf, hr⟩ := List.forall_mem_cons.1 h
    exact (catchClause_placed d first hf).append (catchClauses_placed d rest hr)
termination_by structural vs => vs

theorem switchCase_placed (d : Nat) (subject v : Value) (h : v.PlainHeaders) :
    Own d (c.switchCase subject v) (c.caseUnit d subject v) := by
  cases v with
  | clause k =>
    cases k with
    | case body condition =>
      obtain ⟨hb, -⟩ := h.slots
      exact (Own.of_inline (c.caseLabels_fits subject (c.exprSlot_fits condition) condition)).append
        (.body (c.optional_placed (stmtSlot_placed (d + 1) body hb)))
    | default body =>
      exact ((Own.text _).append .lineBreak).append
        (.body (c.optional_placed (stmtSlot_placed (d + 1) body h.slots)))
    | _ => exact .of_fault rfl _
  | _ => exact .of_fault rfl _
termination_by structural v

theorem switchItems_placed (d : Nat) (subject v : Value) (h : v.PlainHeaders) :
    Own d (concat (c.switchItems subject v)) (c.caseUnits d subject v) := by
  cases v with
  | list items => exact switchCases_placed d subject items fun w hw => h.slot hw
  | _ =>
    rw [switchItems]
    exacts [.strays fun _ => Option.some_ne_none _, by simp]
termination_by structural v

theorem switchCases_placed (d : Nat) (subject : Value) :
    ∀ vs : List Value, (∀ v ∈ vs, v.PlainHeaders) →
      Own d (concat (c.switchCases subject vs)) (c.caseUnitAll d subject vs)
  | [], _ => .empty
  | first :: rest, h => by
    obtain ⟨hf, hr⟩ := List.forall_mem_cons.1 h
    exact (switchCase_placed d subject first hf).append (switchCases_placed d subject rest hr)
termination_by structural vs => vs

end

/-- The units of a list that renders are those of its items. -/
theorem units_eq {v : Value} (h : (concat (c.stmtItems v)).fault = none) :
    ∃ items, v.items = .ok items ∧ c.units d v = items.flatMap (c.unitSlot d) := by
  cases v with
  | list items =>
    refine ⟨items, rfl, ?_⟩
    rw [units]
    clear h
    induction items with
    | nil => rfl
    | cons first rest ih => rw [unitAll, ih, List.flatMap_cons]
  | _ =>
    -- What is no list has no items, since none of them could be written.
    rw [stmtItems, Value.strays] at h
    · split at h
      · next items hi =>
        cases items with
        | nil => exact ⟨[], hi, rfl⟩
        | cons first rest => cases h
      · cases h
    · simp

/-- A function that renders: its variables, and the units of its statements one level in. -/
theorem function_flat {parameters body type : Value} (h : body.PlainHeaders)
    (hf : (c.expr (.function parameters body type)).fault = none) :
    (c.expr (.function parameters body type)).written =
      .text "function(" :: (c.program.parameterList parameters).written ++
        [.text ") \x7b", .lineBreak, .indent] ++ (c.declarations body).written ++
        c.unitSlot 1 body ++ [.outdent, .text "\x7d"] := by
  rw [expr, functionBody] at hf
  obtain ⟨⟨⟨⟨⟨-, hfp⟩, -⟩, -⟩, hfb⟩, -⟩ := by simpa only [fault_append_eq_none] using hf
  rw [fault_indented] at hfb
  split_ifs at hfb with hc
  swap
  · cases hfb
  obtain ⟨⟨⟨-, hfd⟩, hfs⟩, -⟩ := by simpa only [fault_append_eq_none, fault_body] using hfb
  have hpar := c.program.parameterList_inline (s := "function(") (by decide) parameters
  obtain ⟨kp, hp⟩ := hpar.law.runs (by simpa using hfp)
  obtain ⟨kd, hd⟩ := (c.declarations_declares body).neutral.runs hfd
  have hhead := ((hp {} (by decide)).append (runs_text ") \x7b" _)).append (runs_lineBreak _)
  set l := (Layout.settle {} kp).move .indent with hl
  have hopen : Runs (step .enter ++ c.declarations body) l ([] ++ (c.declarations body).written)
      (l.enter.settle kd) :=
    Runs.append ⟨rfl, rfl, rfl⟩ (hd l.enter (Int.zero_le_ofNat 1))
  have hb := c.optional_placed (c.stmtSlot_placed 1 body h)
  obtain ⟨hts, -, -⟩ := Own.run_body hb hfs (l := l.enter.settle kd) ⟨rfl, rfl⟩
  have hbody := (hopen.append ⟨by rw [fault_body, hfs], hts, rfl⟩).append (b := step .leave)
    ⟨rfl, rfl, rfl⟩
  have hin := tokens_indented hbody.fault (Layout.settle {} kp)
  rw [← hl, hbody.tokens] at hin
  have hall := (hhead.append ⟨by rw [fault_indented, hbody.fault], hin, rfl⟩).append
    (runs_text "\x7d" _)
  have hwritten : (text "function(" ++ c.program.parameterList parameters).written =
      .text "function(" :: (c.program.parameterList parameters).written := by
    rw [written, written, outcome_tokens, outcome_tokens, tokens_append rfl]
    rfl
  rw [written, outcome_tokens, expr, functionBody, if_pos hc, hall.tokens, hwritten]
  simp [Step.apply]

/-- A block is laid out flat: the units of its statements, one after the other. So are the functions
in it. -/
theorem statement_flat {statements : Value}
    (hf : (c.statement (.stmt (.block statements))).fault = none)
    (h : (Value.stmt (.block statements)).PlainHeaders) :
    (∃ items, statements.items = .ok items ∧
      (c.statement (.stmt (.block statements))).outcome.tokens = items.flatMap (c.unitSlot 0)) ∧
    ∀ parameters body type,
      Value.Inside (.expr (.function parameters body type)) (.stmt (.block statements)) →
      (c.expr (.function parameters body type)).fault = none →
      (c.expr (.function parameters body type)).written =
        .text "function(" :: (c.program.parameterList parameters).written ++
          [.text ") \x7b", .lineBreak, .indent] ++ (c.declarations body).written ++
          c.unitSlot 1 body ++ [.outdent, .text "\x7d"] := by
  refine ⟨?_, fun parameters body type hin hfun => ?_⟩
  · have hs : (c.stmtSlot (.stmt (.block statements))).fault = none := by
      rw [statement, fault_body] at hf
      exact hf
    have hp := c.stmtSlot_placed 0 _ h
    obtain ⟨ht, -, -⟩ := Own.run_body hp hs (l := {}) ⟨rfl, rfl⟩
    obtain ⟨items, hi, hu⟩ := c.units_eq (d := 0) hs
    refine ⟨items, hi, ?_⟩
    rw [outcome_tokens, statement, ht, ← hu]
    rfl
  · exact c.function_flat ((h.inside hin).slot (by simp [Value.slots, Expr.slots])) hfun

/-- A labeled loop with two expressions in its header, and a function with a label in it. -/
theorem statement_flat_labeled_loop :
    let c : Context := { program := {} }
    let start := .stmt (.block (.list
      [.stmt (.expression (.expr .this)), .stmt (.expression (.expr .base))]))
    let loop := .stmt (.for start .null .null (.stmt (.block (.list [.stmt .break]))))
    let inner := .stmt (.block (.list [.stmt (.labeled 1 (.ofText "b") (.stmt .continue))]))
    let statements := .list [.stmt (.labeled 0 (.ofText "a") loop),
      .stmt (.expression (.expr (.function (.list []) inner .null)))]
    ∃ items, statements.items = .ok items ∧
      (c.statement (.stmt (.block statements))).outcome.tokens = items.flatMap (c.unitSlot 0) := by
  refine (statement_flat _ rfl ?_).1
  repeat' first
    | exact List.forall_mem_nil _
    | refine List.forall_mem_cons.2 ⟨?_, ?_⟩
    | refine (Value.plainHeaders_iff _).2 ⟨rfl, ?_⟩

end Context

end Scribe
