import Scribe.Proofs.CodeRoles

/-!
# Expressions leave the layout alone

`Script.Neutral`: what a script leaves behind does not depend on the layout it starts on, and it
gives the layout back as it was, but that a first statement may be one no longer. Expressions are
neutral (`Context.exprSlot_neutral`), though they may hold functions whose bodies place statements
of their own: a function saves what it interrupts, and two runs of its body go on in parallel
(`Script.Parallel`) because the first separator of a body writes nothing.
-/

namespace Scribe

namespace Layout

/-- Layouts on which the same statements are placed in the same way. Before the first statement it
does not matter what the last one needed, unless `strict` says that it does. -/
structure Alike (strict : Bool) (l m : Layout) : Prop where
  nonneg_left : 0 ≤ l.depth
  nonneg_right : 0 ≤ m.depth
  depth : 0 < l.depth ↔ 0 < m.depth
  forHeader : l.forHeader = m.forHeader
  firstStatement : l.firstStatement = m.firstStatement
  needsTerminator : strict = true ∨ l.firstStatement = false →
    l.needsTerminator = m.needsTerminator

/-- The layout after an expression, which may end the state before the first statement. -/
def settle (l : Layout) (keeps : Bool) : Layout :=
  { l with firstStatement := l.firstStatement && keeps }

@[simp] theorem settle_depth (l : Layout) (k : Bool) : (l.settle k).depth = l.depth := rfl
@[simp] theorem settle_true (l : Layout) : l.settle true = l := by simp [settle]

theorem settle_settle (l : Layout) (j k : Bool) : (l.settle j).settle k = l.settle (j && k) := by
  simp [settle, Bool.and_assoc]

/-- What every complete part of a render gives back. -/
structure Keeps (l l' : Layout) : Prop where
  depth : l'.depth = l.depth
  suspended : l'.suspended = l.suspended

theorem Keeps.refl (l : Layout) : Keeps l l := ⟨rfl, rfl⟩

theorem Keeps.trans {l m n : Layout} (h : Keeps l m) (h' : Keeps m n) : Keeps l n :=
  ⟨h'.depth.trans h.depth, h'.suspended.trans h.suspended⟩

theorem Keeps.outdent {l l' : Layout} (h : Keeps (l.move .indent) l') :
    Keeps l (l'.move .outdent) := by
  have hd : l'.depth = l.depth + 1 := h.depth
  refine ⟨?_, h.suspended⟩
  show l'.depth - 1 = l.depth
  omega

theorem Alike.weaken {strict : Bool} {l m : Layout} (h : Alike true l m) : Alike strict l m :=
  ⟨h.nonneg_left, h.nonneg_right, h.depth, h.forHeader, h.firstStatement,
    fun _ => h.needsTerminator (.inl rfl)⟩

theorem Alike.move_indent {strict : Bool} {l m : Layout} (h : Alike strict l m) :
    Alike strict (l.move .indent) (m.move .indent) := by
  have hl := h.nonneg_left
  have hm := h.nonneg_right
  refine ⟨?_, ?_, ?_, h.forHeader, h.firstStatement, h.needsTerminator⟩ <;>
    simp only [move] <;> omega

theorem Alike.separator {strict : Bool} {l m : Layout} (h : Alike strict l m) :
    l.separator.2 = m.separator.2 := by
  rw [separator_snd, separator_snd, ← h.firstStatement, ← h.forHeader]
  cases hf : l.firstStatement with
  | true => rfl
  | false => rw [h.needsTerminator (.inr hf)]

theorem Alike.label {strict : Bool} {l m : Layout} (h : Alike strict l m) (name : Scalar) :
    (l.label name).2 = (m.label name).2 := by
  rw [label_snd, label_snd, if_congr h.depth rfl rfl]

end Layout

open Layout

namespace Script

variable {a b d s : Script} {x y z : Bool}

/-- Two runs on layouts that are alike leave the same behind and end on layouts that are alike. -/
def Parallel (s : Script) (x y : Bool) : Prop :=
  ∀ l m, Alike x l m → s.events l = s.events m ∧
    (s.fault = none → Alike y (s.after l) (s.after m) ∧ Keeps l (s.after l) ∧ Keeps m (s.after m))

/-- What the script leaves behind is the same on every layout, and the layout is kept. -/
def Neutral (s : Script) : Prop :=
  ∃ keeps : Bool, ∀ l : Layout, 0 ≤ l.depth → s.events l = s.events {} ∧
    (s.fault = none → s.after l = l.settle keeps)

namespace Parallel

theorem append (ha : Parallel a x y) (hb : Parallel b y z) : Parallel (a ++ b) x z := by
  intro l m h
  obtain ⟨hea, hla⟩ := ha l m h
  cases hf : a.fault with
  | some f => simp [events_append_of_some hf, hea, hf]
  | none =>
    obtain ⟨hlm, hl, hm⟩ := hla hf
    obtain ⟨heb, hlb⟩ := hb _ _ hlm
    rw [events_append hf, events_append hf, hea, heb, after_append hf, after_append hf]
    refine ⟨rfl, fun hn => ?_⟩
    obtain ⟨hlm', hl', hm'⟩ := hlb (fault_append_eq_none.1 hn).2
    exact ⟨hlm', hl.trans hl', hm.trans hm'⟩

theorem weaken (h : Parallel s x true) : Parallel s x y := fun l m hlm =>
  ⟨(h l m hlm).1, fun hf =>
    ⟨((h l m hlm).2 hf).1.weaken, ((h l m hlm).2 hf).2⟩⟩

theorem of_neutral (h : Neutral s) : Parallel s true true := by
  obtain ⟨keeps, h⟩ := h
  intro l m hlm
  obtain ⟨hel, hal⟩ := h l hlm.nonneg_left
  obtain ⟨hem, ham⟩ := h m hlm.nonneg_right
  refine ⟨hel.trans hem.symm, fun hf => ?_⟩
  rw [hal hf, ham hf]
  exact ⟨⟨hlm.nonneg_left, hlm.nonneg_right, hlm.depth, hlm.forHeader,
    by simp [settle, hlm.firstStatement], fun _ => hlm.needsTerminator (.inl rfl)⟩, ⟨rfl, rfl⟩, ⟨rfl, rfl⟩⟩

theorem empty : Parallel ∅ x x := fun l m h => ⟨rfl, fun _ => ⟨h, .refl l, .refl m⟩⟩

theorem fail (f : Fault) : Parallel (fail f) x y := fun _ _ _ => ⟨rfl, fun h => by simp at h⟩

/-- A step that moves no margin, as long as it keeps layouts alike. -/
theorem of_step {t : Step} (he : ∀ l m, Alike x l m → (t.apply l).2 = (t.apply m).2)
    (ha : ∀ l m, Alike x l m → Alike y (t.apply l).1 (t.apply m).1)
    (hk : ∀ l, Keeps l (t.apply l).1) : Parallel (step t) x y := by
  intro l m h
  rw [events_step, events_step]
  exact ⟨he l m h, fun _ => ⟨ha l m h, hk l, hk m⟩⟩

theorem separator : Parallel (step .separator) x true := by
  refine of_step (fun l m h => ?_) (fun l m h => ?_) (fun l => ?_) <;> simp only [Step.apply]
  · rw [h.separator]
  · rw [Layout.separator_fst, Layout.separator_fst]
    exact ⟨h.nonneg_left, h.nonneg_right, h.depth, h.forHeader, rfl, fun _ => rfl⟩
  · rw [Layout.separator_fst]
    exact ⟨rfl, rfl⟩

theorem terminate (needed : Bool) : Parallel (step (.terminate needed)) true true :=
  of_step (fun _ _ _ => rfl) (fun _ _ h =>
    ⟨h.nonneg_left, h.nonneg_right, h.depth, h.forHeader, h.firstStatement, fun _ => rfl⟩)
    fun _ => ⟨rfl, rfl⟩

theorem openBody : Parallel (step .openBody) x x :=
  of_step (fun _ _ _ => rfl) (fun _ _ h =>
    ⟨h.nonneg_left, h.nonneg_right, h.depth, h.forHeader, rfl,
      fun hx => h.needsTerminator (hx.imp_right nofun)⟩)
    fun _ => ⟨rfl, rfl⟩

theorem closeBody : Parallel (step .closeBody) true true := by
  refine of_step (fun l m h => ?_) (fun l m h => ?_) (fun l => ?_) <;> simp only [Step.apply]
  · rw [Layout.closeBody_snd, Layout.closeBody_snd, h.separator]
  · rw [Layout.closeBody_fst, Layout.closeBody_fst]
    refine ⟨h.nonneg_left, h.nonneg_right, h.depth, h.forHeader, rfl, fun _ => ?_⟩
    simp only [h.firstStatement, h.needsTerminator (.inl rfl)]
  · rw [Layout.closeBody_fst]
    exact ⟨rfl, rfl⟩

theorem header (inside : Bool) : Parallel (step (.header inside)) x x :=
  of_step (fun _ _ _ => rfl) (fun _ _ h =>
    ⟨h.nonneg_left, h.nonneg_right, h.depth, rfl, h.firstStatement, h.needsTerminator⟩)
    fun _ => ⟨rfl, rfl⟩

theorem label (name : Scalar) : Parallel (step (.label name)) x x :=
  of_step (fun _ _ h => by simp only [Step.apply, h.label]) (fun _ _ h =>
    ⟨h.nonneg_left, h.nonneg_right, h.depth, h.forHeader, rfl,
      fun hx => h.needsTerminator (hx.imp_right nofun)⟩)
    fun _ => ⟨rfl, rfl⟩

/-- One level in and out again. -/
theorem indented (h : Parallel s x y) : Parallel (indented s) x y := by
  intro l m hlm
  obtain ⟨he, ha⟩ := h _ _ hlm.move_indent
  rw [events_indented, events_indented, he]
  refine ⟨rfl, fun hf => ?_⟩
  rw [fault_indented] at hf
  obtain ⟨hlm', hl, hm⟩ := ha hf
  rw [after_indented hf, after_indented hf]
  have hl' := hl.outdent
  have hm' := hm.outdent
  refine ⟨⟨?_, ?_, ?_, hlm'.forHeader, hlm'.firstStatement, hlm'.needsTerminator⟩, hl', hm'⟩
  · rw [hl'.depth]; exact hlm.nonneg_left
  · rw [hm'.depth]; exact hlm.nonneg_right
  · rw [hl'.depth, hm'.depth]; exact hlm.depth

theorem body (h : Parallel s true true) : Parallel (body s) true true :=
  (openBody.append h).append closeBody

end Parallel

/-! Parts of which the first stands before the margin moves in are that part, and the others one level in. -/

theorem steps_wrapped (a b c : Script) : (a ++ token .indent ++ b ++ c ++ token .outdent).steps =
    (a ++ indented (b ++ c)).steps := by
  cases hfa : a.fault <;> cases hfb : b.fault <;> cases hfc : c.fault <;>
    simp [Script.indented, steps_append, hfa, hfb, hfc]

theorem fault_wrapped (a b c : Script) : (a ++ token .indent ++ b ++ c ++ token .outdent).fault =
    (a ++ indented (b ++ c)).fault := by
  simp [Script.indented, Option.or_assoc]

namespace Neutral

theorem empty : Neutral ∅ := ⟨true, fun _ _ => ⟨rfl, fun _ => by simp⟩⟩

theorem fail (f : Fault) : Neutral (fail f) := ⟨true, fun _ _ => ⟨rfl, nofun⟩⟩

theorem of_still {t : Token} (h : ∀ l : Layout, l.move t = l) : Neutral (token t) :=
  ⟨true, fun l _ => ⟨rfl, fun _ => by simp [h]⟩⟩

theorem log (entry : LogEntry) : Neutral (step (.log entry)) :=
  ⟨true, fun l _ => ⟨rfl, fun _ => by simp [Step.apply]⟩⟩

theorem append (ha : Neutral a) (hb : Neutral b) : Neutral (a ++ b) := by
  obtain ⟨ka, ha⟩ := ha
  obtain ⟨kb, hb⟩ := hb
  refine ⟨ka && kb, fun l hl => ?_⟩
  obtain ⟨hea, haa⟩ := ha l hl
  cases hf : a.fault with
  | some f =>
    rw [events_append_of_some hf, events_append_of_some hf, hea]
    exact ⟨rfl, fun hn => by simp [hf] at hn⟩
  | none =>
    have ha₀ := (ha {} (by decide)).2 hf
    have hb' := hb (l.settle ka) hl
    have hb₀ := hb (settle {} ka) (by simp)
    rw [events_append hf, events_append hf, hea, haa hf, ha₀, hb'.1, hb₀.1]
    refine ⟨rfl, fun hn => ?_⟩
    rw [after_append hf, haa hf, hb'.2 (fault_append_eq_none.1 hn).2, settle_settle]

theorem delayed {part : Unit → Script} (h : Neutral (part ())) : Neutral (delayed part) := h

theorem congr (he : b.steps = a.steps) (hf : b.fault = a.fault) (h : Neutral a) : Neutral b := by
  obtain ⟨k, h⟩ := h
  refine ⟨k, fun l hl => ?_⟩
  simpa only [events, after, he, hf] using h l hl

theorem indented (h : Neutral s) : Neutral (indented s) := by
  obtain ⟨k, h⟩ := h
  refine ⟨k, fun l hl => ?_⟩
  have hl' : 0 ≤ (l.move .indent).depth := by
    simp only [move]
    omega
  rw [events_indented, events_indented, (h _ hl').1, (h (move {} .indent) (by decide)).1]
  refine ⟨rfl, fun hf => ?_⟩
  rw [fault_indented] at hf
  rw [after_indented hf, (h _ hl').2 hf]
  simp [move, settle]

theorem wrapped {c : Script} (ha : Neutral a) (hb : Neutral b) (hc : Neutral c) :
    Neutral (a ++ token .indent ++ b ++ c ++ token .outdent) :=
  .congr (steps_wrapped a b c) (fault_wrapped a b c) (ha.append (hb.append hc).indented)

/-- A neutral script writes everywhere what it writes on its own. -/
theorem runs (h : Neutral s) (hf : s.fault = none) :
    ∃ keeps : Bool, ∀ l : Layout, 0 ≤ l.depth → Runs s l s.written (l.settle keeps) := by
  obtain ⟨keeps, h⟩ := h
  refine ⟨keeps, fun l hl => ?_⟩
  obtain ⟨he, ha⟩ := h l hl
  exact ⟨hf, by rw [tokens, he, written, outcome_tokens, tokens], ha hf⟩

/-- What two neutral scripts write, one after the other. -/
theorem written_append (ha : Neutral a) (hb : Neutral b) (hf : a.fault = none) :
    (a ++ b).written = a.written ++ b.written := by
  obtain ⟨ka, hka⟩ := ha.runs hf
  obtain ⟨kb, hkb⟩ := hb
  have hrun := hka {} (by decide)
  obtain ⟨he, -⟩ := hkb (Layout.settle {} ka) (by simp)
  have htb : b.tokens (Layout.settle {} ka) = b.written := by
    rw [tokens, he, written, outcome_tokens, tokens]
  rw [written, outcome_tokens, tokens_append hf, hrun.tokens, hrun.after, htb]

theorem written_indented (h : Neutral s) (hf : s.fault = none) :
    (Script.indented s).written = .indent :: s.written ++ [.outdent] := by
  obtain ⟨k, hk⟩ := h.runs hf
  have hrun := hk (Layout.move {} .indent) (by decide)
  rw [written, outcome_tokens, tokens_indented hf, hrun.tokens]

end Neutral

theorem Neutral.text (s : String) : Neutral (text s) := .of_still fun _ => rfl

theorem IsName.neutral (h : IsName s) : Neutral s := by
  cases h with
  | fail f => exact .fail f
  | token name target => exact .of_still fun _ => rfl

theorem Neutral.sequential : Sequential Neutral := ⟨.empty, .append⟩

theorem Neutral.concat {l : List Script} (h : ∀ s ∈ l, Neutral s) : Neutral (concat l) :=
  Neutral.sequential.concat h

theorem Neutral.commaSeparated {l : List Script} (h : ∀ s ∈ l, Neutral s) :
    Neutral (commaSeparated l) := Neutral.sequential.commaSeparated (.text _) h

theorem Declares.neutral (h : Declares d) : Neutral d := by
  cases h with
  | fail f => exact .fail f
  | lines entry h =>
    refine .append (.log entry) (.concat fun s hs => ?_)
    obtain ⟨n, hn, rfl⟩ := List.mem_map.1 hs
    exact .append (.append (.append (.text _) (h n hn).neutral) (.text _)) (.of_still fun _ => rfl)

theorem events_leave (s : Script) (l : Layout) : (s ++ step .leave).events l = s.events l := by
  cases h : s.fault with
  | some f => rw [events_append_of_some h]
  | none => simp [events_append h, Step.apply]

/-- Where the body of a function opens, two layouts that are one level in differ at most in what was
interrupted, so its statements run in parallel. -/
theorem function_events (hd : Neutral d) (hs : ∀ x, Parallel s x x) {l m : Layout}
    (hl : 0 < l.depth) (hm : 0 < m.depth) :
    (step .enter ++ d ++ body s ++ step .leave).events l =
      (step .enter ++ d ++ body s ++ step .leave).events m := by
  obtain ⟨k, hd⟩ := hd
  have hdl := hd l.enter (Int.le_of_lt hl)
  have hdm := hd m.enter (Int.le_of_lt hm)
  have hed (n : Layout) : (step .enter ++ d).events n = d.events n.enter := by
    rw [events_append (by rfl), events_step]
    rfl
  rw [events_leave, events_leave]
  cases hfd : d.fault with
  | some f =>
    have hf : (step .enter ++ d).fault = some f := by simpa using hfd
    rw [events_append_of_some hf, events_append_of_some hf, hed, hed, hdl.1, hdm.1]
  | none =>
    have hf : (step .enter ++ d).fault = none := by simpa using hfd
    have hopen : Alike false { d.after l.enter with firstStatement := true }
        { d.after m.enter with firstStatement := true } := by
      rw [hdl.2 hfd, hdm.2 hfd]
      exact ⟨Int.le_of_lt hl, Int.le_of_lt hm, iff_of_true hl hm, rfl, rfl, by simp⟩
    obtain ⟨hes, has⟩ := hs false _ _ hopen
    rw [events_append hf, events_append hf, hed, hed, hdl.1, hdm.1, after_append (by rfl),
      after_append (by rfl), events_body, events_body]
    refine congrArg _ (congrArg₂ _ hes ?_)
    cases hfs : s.fault with
    | some f => rfl
    | none =>
      have hsep := (has hfs).1.separator
      exact congrArg (if none = none then List.map Event.token · else []) hsep

/-- Leaving the body of a function takes back what entering it set aside. -/
theorem function_after (hd : Neutral d) (hs : ∀ x, Parallel s x x) {l : Layout} (hl : 0 < l.depth)
    (hfd : d.fault = none) (hfs : s.fault = none) :
    (step .enter ++ d ++ body s ++ step .leave).after l = l.settle false := by
  obtain ⟨k, hd⟩ := hd
  have hdl := (hd l.enter (Int.le_of_lt hl)).2 hfd
  have hopen : Alike true { l.enter with firstStatement := true }
      { l.enter with firstStatement := true } :=
    ⟨Int.le_of_lt hl, Int.le_of_lt hl, .rfl, rfl, rfl, fun _ => rfl⟩
  obtain ⟨-, hkeep, -⟩ := (hs true _ _ hopen).2 hfs
  have hbody : (step .enter ++ d ++ body s).after l =
      (s.after { l.enter with firstStatement := true }).closeBody.1 := by
    rw [after_append (by simpa using hfd), after_append (by rfl), after_body hfs]
    show (s.after { d.after l.enter with firstStatement := true }).closeBody.1 = _
    rw [hdl]
    rfl
  have hsus : (s.after { l.enter with firstStatement := true }).suspended =
      (l.forHeader, l.needsTerminator) :: l.suspended := hkeep.suspended
  have hdepth : (s.after { l.enter with firstStatement := true }).depth = l.depth := hkeep.depth
  rw [after_append (by simp [hfd, hfs]), hbody, closeBody_fst]
  simp [Step.apply, leave, hsus, hdepth, settle]

theorem Neutral.function (hd : Neutral d) (hs : ∀ x, Parallel s x x) :
    Neutral (Script.indented (step .enter ++ d ++ body s ++ step .leave)) := by
  have hin (l : Layout) (hl : 0 ≤ l.depth) : 0 < (l.move .indent).depth := by
    show 0 < l.depth + 1
    omega
  refine ⟨false, fun l hl => ?_⟩
  rw [events_indented, events_indented, function_events hd hs (hin l hl) (hin {} (by decide))]
  refine ⟨rfl, fun hf => ?_⟩
  rw [fault_indented] at hf
  obtain ⟨hfd, hfs⟩ : d.fault = none ∧ s.fault = none := by simpa using hf
  rw [after_indented hf, function_after hd hs (hin l hl) hfd hfs]
  simp [move, settle]

/-- What the scripts of each role keep. -/
def Role.Law : Role → Script → Prop
  | .inline, s => Neutral s
  | .own, s => Parallel s true true
  | .started, s => ∀ x, Parallel s x true
  | .statements, s => ∀ x, Parallel s x x

theorem Fits.law {r : Role} (h : Fits r s) : r.Law s := by
  induction h with
  | empty => exact .empty
  | fail f => exact .fail f
  | token h => exact .of_still fun l => by cases ‹Token› <;> first | rfl | cases h
  | names hs h => exact .append (.text _) (.commaSeparated fun n hn => (h n hn).neutral)
  | append _ _ ha hb => exact Neutral.append ha hb
  | delayed _ h => exact h
  | indented _ h => exact Neutral.indented h
  | wrapped _ _ _ ha hb hc => exact .wrapped ha hb hc
  | function hd _ hs => exact .function hd.neutral hs
  | inline _ h => exact .of_neutral h
  | terminate needed => exact .terminate needed
  | ownAppend _ _ ha hb => exact Parallel.append ha hb
  | ownIndented _ h => exact Parallel.indented h
  | body _ h => exact (Parallel.body (h true)).indented
  | first => exact fun _ => .separator
  | next _ h => exact fun x => (h x).append .separator
  | own _ _ ha hb => exact fun x => (ha x).append hb
  | header _ _ _ _ ha hs hc hi =>
    have hc := Parallel.of_neutral hc
    have ht := Parallel.of_neutral (.of_still (t := .text "; ") fun _ => rfl)
    exact fun x => ((((((((((ha x).append (.header true)).append .openBody).append (hs true)).append
      ht).append hc).append ht).append .openBody).append (hi true)).append (.header false))
  | started _ h => exact fun x => (h x).weaken
  | label name => exact fun x => (Parallel.separator.append (.label name)).weaken
  | none => exact fun _ => .empty
  | broken f => exact fun _ => .fail f
  | follow _ _ ha hb => exact fun x => (ha x).append (hb x)
  | later _ h => exact h

end Script

/-- Expressions are neutral. -/
theorem Context.exprSlot_neutral (c : Context) (v : Value) : Script.Neutral (c.exprSlot v) :=
  (c.exprSlot_fits v).law

end Scribe
